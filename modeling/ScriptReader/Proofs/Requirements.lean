/- # ScriptReader.Proofs.Requirements — what is asked of the recipes that tables hold

Tables hold any recipes, so a result about all tables asks something of what is in them.
A requirement says what, for each use that tables make of a recipe. Tables that are built
of entries meet it if each entry brings a recipe that does (`Tables.Meet.extend`).

`Tables.Native` is what most results ask for: the recipes are those of the language's
rules, for whatever kinds of token, and only types go on as they like.
-/
import ScriptReader.Grammar.Tables

namespace ScriptReader

set_option autoImplicit false

/-- What is asked of a recipe, for each use of it. -/
structure Requirement where
  statement : Recipe Statement → Prop
  prefixForm : Recipe Expr → Prop
  infixForm : InfixRecipe → Prop
  typePrefix : Recipe TypeExpr → Prop
  typeInfix : TypeInfixRule → Prop

/-- The entry brings a recipe that meets the requirement. -/
def Entry.Meets (asked : Requirement) : Entry → Prop
  | .statement _ rule => asked.statement rule.recipe
  | .prefixForm _ rule => asked.prefixForm rule.recipe
  | .infixForm _ _ rule => asked.infixForm rule.recipe
  | .typePrefix _ rule => asked.typePrefix rule.recipe
  | .typeInfix _ _ rule => asked.typeInfix rule
  | .ownStatement _ recipe => asked.statement recipe
  | .ownPrefix _ recipe => asked.prefixForm recipe
  | .ownInfix _ _ recipe => asked.infixForm recipe
  | .ownTypePrefix _ recipe => asked.typePrefix recipe

/-- All recipes that the tables hold meet the requirement. -/
structure Tables.Meet (asked : Requirement) (tables : Tables) : Prop where
  statementRule : ∀ {kind recipe}, tables.statementRule kind = some recipe → asked.statement recipe
  prefixRule : ∀ {kind recipe}, tables.prefixRule kind = some recipe → asked.prefixForm recipe
  infixRule : ∀ {kind recipe}, tables.infixRule kind = some recipe → asked.infixForm recipe
  typePrefixRule : ∀ {kind recipe}, tables.typePrefixRule kind = some recipe →
    asked.typePrefix recipe
  typeInfixRule : ∀ {kind rule}, tables.typeInfixRule kind = some rule → asked.typeInfix rule

namespace Tables

theorem assign_of_ne {α : Type} {entries : TokenKind → Option α} {kind other : TokenKind}
    {value : α} (different : other ≠ kind) : assign entries kind value other = entries other :=
  if_neg different

/-- Where one value is replaced, each value is the new one or one from before. -/
theorem of_assign {α : Type} {entries : TokenKind → Option α} {kind other : TokenKind}
    {value value' : α} {asked : α → Prop} (new : asked value)
    (before : ∀ {kind value}, entries kind = some value → asked value)
    (found : assign entries kind value other = some value') : asked value' := by
  unfold assign at found
  split at found
  · cases found
    exact new
  · exact before found

namespace Meet

variable {asked : Requirement} {tables : Tables} {entry : Entry} {entries : List Entry}

theorem empty : Tables.empty.Meet asked := by
  constructor <;> intro _ _ found <;> cases found

theorem insert (meet : tables.Meet asked) (meets : entry.Meets asked) :
    (tables.insert entry).Meet asked := by
  cases entry with
  | statement kind rule | ownStatement kind recipe =>
      exact { meet with statementRule := of_assign meets meet.statementRule }
  | prefixForm kind rule | ownPrefix kind recipe =>
      exact { meet with prefixRule := of_assign meets meet.prefixRule }
  | infixForm kind power rule | ownInfix kind power recipe =>
      exact { meet with infixRule := of_assign meets meet.infixRule }
  | typePrefix kind rule | ownTypePrefix kind recipe =>
      exact { meet with typePrefixRule := of_assign meets meet.typePrefixRule }
  | typeInfix kind power rule =>
      exact { meet with typeInfixRule := of_assign meets meet.typeInfixRule }

theorem extend (meet : tables.Meet asked) (meets : ∀ entry ∈ entries, entry.Meets asked) :
    (tables.extend entries).Meet asked := by
  refine List.foldlRecOn entries Tables.insert meet ?_
  intro tables meet entry member
  exact meet.insert (meets entry member)

end Meet

end Tables

/-! ## Rules of the language -/

/-- To be the recipe of one of the language's rules. -/
def Requirement.native : Requirement where
  statement recipe := ∃ rule : StatementRule, rule.recipe = recipe
  prefixForm recipe := ∃ rule : PrefixRule, rule.recipe = recipe
  infixForm recipe := ∃ rule : InfixRule, rule.recipe = recipe
  typePrefix recipe := ∃ rule : TypePrefixRule, rule.recipe = recipe
  typeInfix _ := True

/-- The tables hold no recipes but those of the language's rules, except for going on from
types. -/
abbrev Tables.Native (tables : Tables) : Prop := tables.Meet .native

/-- The entry brings no recipe of one's own, except for going on from types. -/
def Entry.Native : Entry → Prop
  | .ownStatement _ _ | .ownPrefix _ _ | .ownInfix _ _ _ | .ownTypePrefix _ _ => False
  | _ => True

instance : DecidablePred Entry.Native
  | .ownStatement _ _ | .ownPrefix _ _ | .ownInfix _ _ _ | .ownTypePrefix _ _ =>
    inferInstanceAs (Decidable False)
  | .statement _ _ | .prefixForm _ _ | .infixForm _ _ _ | .typePrefix _ _ | .typeInfix _ _ _ =>
    inferInstanceAs (Decidable True)

theorem Entry.Native.meets {entry : Entry} (native : entry.Native) : entry.Meets .native := by
  cases entry with
  | statement kind rule | prefixForm kind rule | infixForm kind power rule | typePrefix kind rule =>
      exact ⟨rule, rfl⟩
  | typeInfix kind power rule => trivial
  | ownStatement | ownPrefix | ownInfix | ownTypePrefix => exact native.elim

theorem Tables.Native.extend {tables : Tables} (native : tables.Native) {entries : List Entry}
    (others : ∀ entry ∈ entries, entry.Native) : (tables.extend entries).Native :=
  Tables.Meet.extend native fun entry member => (others entry member).meets

theorem Tables.Native.language : Tables.language.Native :=
  Tables.Native.extend Tables.Meet.empty (by decide)

end ScriptReader
