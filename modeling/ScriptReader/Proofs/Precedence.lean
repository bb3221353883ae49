/- # ScriptReader.Proofs.Precedence — operators bind as their powers say

The tree of a sequence of operands joined by operators is usually told from above:
the weakest operator is its root, the first of them if one groups to the right and
the last of them otherwise, and the two sides are trees of the same kind
(`splitTree`). The reader never looks for a root. It goes from left to right and
asks for each right operand at a power of its own.

`readsInLength_splitTree` says that both are the same. Its induction follows the
split: what stands before the root is stopped by the root, and what stands behind
it is read at the power that the root asks for. The theorem for whole cursors is
`expression_reads_splitTree`.
-/
import Mathlib.Data.List.MinMax
import Mathlib.Order.Basic
import ScriptReader.Proofs.Language

namespace ScriptReader

set_option autoImplicit false

/-! ## Operators and leaves -/

/-- A token that joins two operands under the tables. -/
structure Operator (tables : Tables) where
  token : Token
  rule : InfixRule
  found : tables.infixRule token.kind = some rule.recipe
  joins : rule.joins = true

/-- A token that is an operand of its own under the tables. -/
structure Leaf (tables : Tables) where
  token : Token
  value : Expr
  found : tables.prefixRule token.kind = some .primary
  reads : Recipe.ofToken token = .ok value

variable {tables : Tables}

namespace Operator

/-- How tightly the operator binds. -/
def power (operator : Operator tables) : Power := tables.power operator.token.kind

def groupsRight (operator : Operator tables) : Bool := operator.rule.groupsRight

/-- The power at which the operator's right operand is read. -/
def rightPower (operator : Operator tables) : Power := operator.rule.rightPower operator.power

/-- The expression that the operator makes of its operands. -/
def join (operator : Operator tables) (left right : Expr) : Expr :=
  operator.rule.join left operator.token right

theorem rightPower_of_groupsRight {operator : Operator tables} (right : operator.groupsRight) :
    operator.rightPower = operator.power.weaker := by
  unfold rightPower InfixRule.rightPower
  exact if_pos right

theorem rightPower_of_not_groupsRight {operator : Operator tables}
    (left : ¬ operator.groupsRight) : operator.rightPower = operator.power := by
  unfold rightPower InfixRule.rightPower
  exact if_neg left

end Operator

/-! ## The reference tree -/

/-- A list around its first element of the wanted kind: what stands before it, the element,
and what stands behind it. -/
def firstSplit {α : Type} (wanted : α → Bool) : List α → Option (List α × α × List α)
  | [] => none
  | head :: rest =>
    if wanted head then some ([], head, rest)
    else (firstSplit wanted rest).map fun (before, found, after) => (head :: before, found, after)

/-- A list around its last element of the wanted kind. -/
def lastSplit {α : Type} (wanted : α → Bool) : List α → Option (List α × α × List α)
  | [] => none
  | head :: rest =>
    match lastSplit wanted rest with
    | some (before, found, after) => some (head :: before, found, after)
    | none => if wanted head then some ([], head, rest) else none

section Splits

variable {α : Type} {wanted : α → Bool} {list before after : List α} {found : α}

theorem firstSplit_eq_some (split : firstSplit wanted list = some (before, found, after)) :
    list = before ++ found :: after ∧ wanted found ∧ ∀ other ∈ before, ¬ wanted other := by
  induction list generalizing before with
  | nil => cases split
  | cons head rest ih =>
      rw [firstSplit] at split
      by_cases here : wanted head
      · rw [if_pos here] at split
        cases split
        exact ⟨rfl, here, by simp⟩
      · rw [if_neg here, Option.map_eq_some_iff] at split
        obtain ⟨⟨before', found', after'⟩, split, same⟩ := split
        cases same
        obtain ⟨rfl, there, none⟩ := ih split
        refine ⟨rfl, there, ?_⟩
        simpa [here] using none

theorem firstSplit_eq_none (split : firstSplit wanted list = none) :
    ∀ other ∈ list, ¬ wanted other := by
  induction list with
  | nil => simp
  | cons head rest ih =>
      rw [firstSplit] at split
      by_cases here : wanted head
      · rw [if_pos here] at split
        cases split
      · rw [if_neg here, Option.map_eq_none_iff] at split
        simpa [here] using ih split

theorem lastSplit_eq_none (split : lastSplit wanted list = none) :
    ∀ other ∈ list, ¬ wanted other := by
  induction list with
  | nil => simp
  | cons head rest ih =>
      rw [lastSplit] at split
      cases inner : lastSplit wanted rest with
      | some parts =>
          rw [inner] at split
          cases split
      | none =>
          rw [inner] at split
          by_cases here : wanted head
          · simp [here] at split
          · simpa [here] using ih inner

theorem lastSplit_eq_some (split : lastSplit wanted list = some (before, found, after)) :
    list = before ++ found :: after ∧ wanted found ∧ ∀ other ∈ after, ¬ wanted other := by
  induction list generalizing before with
  | nil => cases split
  | cons head rest ih =>
      rw [lastSplit] at split
      cases inner : lastSplit wanted rest with
      | some parts =>
          rw [inner] at split
          cases split
          obtain ⟨rfl, there, none⟩ := ih inner
          exact ⟨rfl, there, none⟩
      | none =>
          rw [inner] at split
          by_cases here : wanted head
          · simp only [here, if_true] at split
            cases split
            exact ⟨rfl, here, lastSplit_eq_none inner⟩
          · simp [here] at split

end Splits

section Trees

variable {α : Type}

/-- Whether no operator binds less tightly than the link's. -/
def isWeakest (links : List (Operator tables × α)) (link : Operator tables × α) : Bool :=
  links.all fun other => link.1.power ≤ other.1.power

/-- The links around the root: among the weakest operators the first that groups to the
right, and where none does, the last. -/
def rootSplit (links : List (Operator tables × α)) :
    Option (List (Operator tables × α) × (Operator tables × α) × List (Operator tables × α)) :=
  firstSplit (fun link => isWeakest links link && link.1.groupsRight) links <|>
    lastSplit (isWeakest links) links

variable {links before after : List (Operator tables × α)} {root : Operator tables × α}

theorem le_of_isWeakest (weakest : isWeakest links root) {link : Operator tables × α}
    (member : link ∈ links) : root.1.power ≤ link.1.power := by
  simpa using List.all_eq_true.mp weakest link member

theorem exists_isWeakest (some : links ≠ []) : ∃ link ∈ links, isWeakest links link := by
  have present : links.argmin (fun link => link.1.power.rank) ≠ none := by
    intro none
    exact some (List.argmin_eq_none.mp none)
  obtain ⟨link, least⟩ := Option.ne_none_iff_exists'.mp present
  refine ⟨link, List.argmin_mem least, ?_⟩
  apply List.all_eq_true.mpr
  intro other member
  simpa [Power.le_iff_rank] using List.le_of_mem_argmin member least

theorem eq_nil_of_rootSplit_eq_none (split : rootSplit links = none) : links = [] := by
  apply Classical.byContradiction
  intro some
  obtain ⟨link, member, weakest⟩ := exists_isWeakest some
  exact lastSplit_eq_none ((Option.orElse_eq_none _ _).mp split).2 link member weakest

/-- What the split around the root says of the powers. -/
structure IsRoot (links before : List (Operator tables × α)) (root : Operator tables × α)
    (after : List (Operator tables × α)) : Prop where
  split : links = before ++ root :: after
  weakest : ∀ link ∈ links, root.1.power ≤ link.1.power
  first : ∀ link ∈ before, link.1.groupsRight → root.1.power < link.1.power
  last : ¬ root.1.groupsRight → ∀ link ∈ after, root.1.power < link.1.power

theorem lt_of_not_isWeakest {link : Operator tables × α} (rootWeakest : isWeakest links root)
    (notWeakest : ¬ isWeakest links link) : root.1.power < link.1.power := by
  obtain ⟨other, member, weaker⟩ : ∃ other ∈ links, ¬ link.1.power ≤ other.1.power := by
    simpa [isWeakest] using notWeakest
  have least := le_of_isWeakest rootWeakest member
  rw [Power.le_iff_rank] at least weaker
  rw [Power.lt_iff_rank]
  omega

theorem isRoot_of_rootSplit (split : rootSplit links = some (before, root, after)) :
    IsRoot links before root after := by
  rcases (Option.orElse_eq_some _ _ _).mp split with first | ⟨none, last⟩
  · obtain ⟨rfl, both, earlier⟩ := firstSplit_eq_some first
    obtain ⟨weakest, right⟩ := Bool.and_eq_true_iff.mp both
    refine ⟨rfl, fun _ => le_of_isWeakest weakest, ?_, fun left => absurd right left⟩
    intro link member linkRight
    apply lt_of_not_isWeakest weakest
    intro linkWeakest
    exact earlier link member (Bool.and_eq_true_iff.mpr ⟨linkWeakest, linkRight⟩)
  · have noneRight := firstSplit_eq_none none
    obtain ⟨rfl, weakest, later⟩ := lastSplit_eq_some last
    refine ⟨rfl, fun _ => le_of_isWeakest weakest, ?_, ?_⟩
    · intro link member linkRight
      have among := List.mem_append_left (root :: after) member
      apply lt_of_not_isWeakest weakest
      intro linkWeakest
      exact noneRight link among (Bool.and_eq_true_iff.mpr ⟨linkWeakest, linkRight⟩)
    · intro _ link member
      exact lt_of_not_isWeakest weakest (later link member)

/-- What stands before the root is stopped by it. -/
theorem IsRoot.not_rightPower_lt (isRoot : IsRoot links before root after)
    {link : Operator tables × α} (member : link ∈ before) :
    ¬ link.1.rightPower < root.1.power := by
  by_cases right : link.1.groupsRight
  · have tighter := isRoot.first link member right
    rw [Operator.rightPower_of_groupsRight right, Power.lt_iff_rank, Power.rank_weaker]
    rw [Power.lt_iff_rank] at tighter
    omega
  · have least := isRoot.weakest link (isRoot.split ▸ List.mem_append_left _ member)
    rw [Operator.rightPower_of_not_groupsRight right, Power.lt_iff_rank]
    rw [Power.le_iff_rank] at least
    omega

/-- What stands behind the root binds tighter than the root's right operand has to. -/
theorem IsRoot.rightPower_lt (isRoot : IsRoot links before root after) {least : Power}
    (tighter : least < root.1.power) {link : Operator tables × α} (member : link ∈ after) :
    root.1.rightPower < link.1.power := by
  by_cases right : root.1.groupsRight
  · have weakest := isRoot.weakest link
      (isRoot.split ▸ List.mem_append_right _ (List.mem_cons_of_mem _ member))
    rw [Operator.rightPower_of_groupsRight right, Power.lt_iff_rank, Power.rank_weaker]
    rw [Power.le_iff_rank] at weakest
    rw [Power.lt_iff_rank] at tighter
    omega
  · rw [Operator.rightPower_of_not_groupsRight right]
    exact isRoot.last right link member

/-- The tree of operands joined by operators, told from its root. -/
def splitTree (value : α → Expr) (first : α) (links : List (Operator tables × α)) : Expr :=
  match split : rootSplit links with
  | none => value first
  | some (before, (operator, operand), after) =>
    have : before.length < links.length := by
      rw [(isRoot_of_rootSplit split).split, List.length_append, List.length_cons]
      omega
    have : after.length < links.length := by
      rw [(isRoot_of_rootSplit split).split, List.length_append, List.length_cons]
      omega
    operator.join (splitTree value first before) (splitTree value operand after)
termination_by links.length

theorem splitTree_of_none {value : α → Expr} {first : α} (split : rootSplit links = none) :
    splitTree value first links = value first := by
  rw [splitTree]
  split
  · rfl
  · rename_i split'
    rw [split] at split'
    cases split'

theorem splitTree_of_some {value : α → Expr} {first : α}
    (split : rootSplit links = some (before, root, after)) :
    splitTree value first links =
      root.1.join (splitTree value first before) (splitTree value root.2 after) := by
  rw [splitTree]
  split
  · rename_i split'
    rw [split] at split'
    cases split'
  · rename_i split'
    rw [split] at split'
    cases split'
    rfl

end Trees

/-! ## The reader builds the reference tree -/

namespace Phrase

/-- A reading with no more levels than there are tokens ahead, and one. Whatever is asked
for behind the first token is read again so. -/
def ReadsInLength (tables : Tables) : Readings :=
  fun phrase ahead value left => ReadsWithin tables (ahead.length + 1) phrase ahead value left

section Steps

variable {least : Power} {left right whole : Expr} {ahead behind rest : List Token}

theorem readsInLength_tail_stop {next : Token} (stops : ¬ least < tables.power next.kind) :
    ReadsInLength tables (.expressionTail least left) (next :: rest) left (next :: rest) := by
  show (Recipe.expressionTailPhrase tables least left).Reads _ _ _ _
  simp only [Recipe.expressionTailPhrase, Recipe.reads_bind, Recipe.reads_kind]
  refine ⟨next.kind, next :: rest, ⟨rfl, next, rest, rfl, rfl⟩, ?_⟩
  rw [if_neg stops]
  exact ⟨rfl, rfl⟩

theorem readsInLength_tail_operator {operator : Operator tables} (tighter : least < operator.power)
    (operand : ReadsInLength tables (.expression operator.rightPower) ahead right behind)
    (tail : ReadsInLength tables (.expressionTail least (operator.join left right)) behind whole
      rest) :
    ReadsInLength tables (.expressionTail least left) (operator.token :: ahead) whole rest := by
  show (Recipe.expressionTailPhrase tables least left).Reads _ _ _ _
  simp only [Recipe.expressionTailPhrase, Recipe.reads_bind, Recipe.reads_kind]
  refine ⟨operator.token.kind, operator.token :: ahead, ⟨rfl, _, _, rfl, rfl⟩, ?_⟩
  rw [if_pos (show least < tables.power operator.token.kind from tighter), operator.found]
  have shorter := operand.suffix.length_le
  refine Recipe.reads_bind.mpr ⟨operator.join left right, behind, ?_, ?_⟩
  · exact (Recipe.reads_joining operator.joins).mpr ⟨operator.token, ahead, right, rfl, operand, rfl⟩
  · exact Recipe.reads_ask.mpr (tail.mono (by simpa using shorter))

theorem readsInLength_leaf {leaf : Leaf tables}
    (tail : ReadsInLength tables (.expressionTail least leaf.value) ahead whole rest) :
    ReadsInLength tables (.expression least) (leaf.token :: ahead) whole rest := by
  show (Recipe.expressionPhrase tables least).Reads _ _ _ _
  simp only [Recipe.expressionPhrase, Recipe.reads_bind, Recipe.reads_kind]
  refine ⟨leaf.token.kind, leaf.token :: ahead, ⟨rfl, _, _, rfl, rfl⟩, ?_⟩
  rw [leaf.found]
  refine Recipe.reads_bind.mpr ⟨leaf.value, ahead, ?_, Recipe.reads_ask.mpr tail⟩
  exact Recipe.reads_tokenAs.mpr ⟨leaf.token, rfl, leaf.reads⟩

end Steps

end Phrase

/-- The tokens of operators, each with the leaf behind it. -/
def written (links : List (Operator tables × Leaf tables)) : List Token :=
  links.flatMap fun (operator, leaf) => [operator.token, leaf.token]

theorem length_written (links : List (Operator tables × Leaf tables)) :
    (written links).length = 2 * links.length := by
  induction links with
  | nil => rfl
  | cons link links ih =>
      simp only [written, List.flatMap_cons, List.length_append, List.length_cons, List.length_nil]
        at ih ⊢
      omega

theorem written_append (before after : List (Operator tables × Leaf tables)) :
    written (before ++ after) = written before ++ written after := List.flatMap_append

theorem written_cons (operator : Operator tables) (leaf : Leaf tables)
    (links : List (Operator tables × Leaf tables)) :
    written ((operator, leaf) :: links) = operator.token :: leaf.token :: written links := rfl

/-- Where the reading goes on from the reference tree, it goes on from its operands. -/
theorem readsInLength_splitTree {first : Leaf tables}
    {links : List (Operator tables × Leaf tables)} {least : Power} {next : Token}
    {rest behind : List Token} {whole : Expr}
    (tighter : ∀ link ∈ links, least < link.1.power)
    (stops : ∀ link ∈ links, ¬ link.1.rightPower < tables.power next.kind)
    (tail : Phrase.ReadsInLength tables
      (.expressionTail least (splitTree Leaf.value first links)) (next :: rest) whole behind) :
    Phrase.ReadsInLength tables (.expression least)
      (first.token :: (written links ++ next :: rest)) whole behind := by
  induction first, links using splitTree.induct generalizing least next rest whole behind with
  | case1 first links split =>
      obtain rfl := eq_nil_of_rootSplit_eq_none split
      rw [splitTree_of_none split] at tail
      exact Phrase.readsInLength_leaf tail
  | case2 first links before operator operand after split _ _ ihBefore ihAfter =>
      have isRoot := isRoot_of_rootSplit split
      obtain rfl := isRoot.split
      rw [splitTree_of_some split] at tail
      have root : (operator, operand) ∈ before ++ (operator, operand) :: after := by simp
      have rootTighter : least < operator.power := tighter _ root
      have rootStops : ¬ operator.rightPower < tables.power next.kind := stops _ root
      -- The right side is read at the root's right power and ends where the whole ends.
      have right : Phrase.ReadsInLength tables (.expression operator.rightPower)
          (operand.token :: (written after ++ next :: rest)) (splitTree Leaf.value operand after)
          (next :: rest) := by
        apply ihAfter
        · intro link member
          exact isRoot.rightPower_lt rootTighter member
        · intro link member
          exact stops link (by simp [member])
        · exact Phrase.readsInLength_tail_stop rootStops
      have joined := Phrase.readsInLength_tail_operator rootTighter right tail
      -- The left side ends in front of the root, and goes on there.
      have left := ihBefore
        (fun link member => tighter link (by simp [member]))
        (fun link member => isRoot.not_rightPower_lt member) joined
      rw [written_append, written_cons, List.append_assoc]
      exact left

theorem exists_operator_of_joining {token : Token} (joining : token.kind ∈ TokenKind.joining) :
    ∃ operator : Operator .language, operator.token = token ∧ .lowest < operator.power := by
  obtain ⟨rule, joins, member⟩ := Tables.exists_joins_of_joining joining
  have found := Tables.language_infixRule_iff.mpr ⟨rule, member, rfl⟩
  exact ⟨⟨token, rule, found, joins⟩, rfl, (Tables.language_power_of_joining joining).1⟩

theorem exists_leaf_of_ofToken {token : Token} {value : Expr}
    (reads : Recipe.ofToken token = .ok value) :
    ∃ leaf : Leaf .language, leaf.token = token ∧ leaf.value = value := by
  have literal : token.kind = .number ∨ token.kind = .text ∨ token.kind = .identifier := by
    unfold Recipe.ofToken at reads
    split at reads <;> simp_all
  have found : Tables.language.prefixRule token.kind = some .primary := by
    refine Tables.language_prefixRule_iff.mpr ⟨.primary, ?_, rfl⟩
    rcases literal with same | same | same <;> simp [same, PrefixRule.kinds]
  exact ⟨⟨token, value, found, reads⟩, rfl, rfl⟩

/-- **Precedence and association.** Under any tables: a leaf, any number of operators with
leaves behind them that all bind tighter than is asked for, and then a token that does not.
The expression is accepted in front of that token, and it is the tree told from the root. In
the language every joining kind is such an operator, and every number that can be read, text
and name is such a leaf. -/
theorem expression_reads_splitTree :
    (∀ (tables : Tables) (least : Power) (first : Leaf tables)
        (links : List (Operator tables × Leaf tables)) (next : Token) (rest : List Token)
        (index : Nat), (∀ link ∈ links, least < link.1.power) →
      tables.power next.kind ≤ least →
      (Recipe.expression least).perform tables
          ⟨index, first.token, written links ++ next :: rest⟩ =
        .accepted (splitTree Leaf.value first links)
          ⟨index + 2 * links.length + 1, next, rest⟩) ∧
    (∀ token : Token, token.kind ∈ TokenKind.joining →
      ∃ operator : Operator .language, operator.token = token ∧ .lowest < operator.power) ∧
    (∀ (token : Token) (value : Expr), Recipe.ofToken token = .ok value →
      ∃ leaf : Leaf .language, leaf.token = token ∧ leaf.value = value) := by
  refine ⟨?_, fun token => exists_operator_of_joining, fun token value => exists_leaf_of_ofToken⟩
  intro tables least first links next rest index tighter stops
  have read : Phrase.ReadsInLength tables (.expression least)
      (first.token :: (written links ++ next :: rest)) (splitTree Leaf.value first links)
      (next :: rest) := by
    apply readsInLength_splitTree tighter
    · intro link member
      have above := tighter link member
      rw [Power.lt_iff_rank] at above ⊢
      rw [Power.le_iff_rank] at stops
      by_cases right : link.1.groupsRight
      · rw [Operator.rightPower_of_groupsRight right, Power.rank_weaker]
        omega
      · rw [Operator.rightPower_of_not_groupsRight right]
        omega
    · exact Phrase.readsInLength_tail_stop (Nat.not_lt.mpr stops)
  have enough : (first.token :: (written links ++ next :: rest)).length + 1 ≤
      (Cursor.mk index first.token (written links ++ next :: rest)).budget := by
    simp only [Cursor.budget, List.length_cons]
    omega
  have answered := answer_of_readsWithin (read.mono enough) (by simp) index
  have place : (first.token :: (written links ++ next :: rest)).length - (next :: rest).length =
      2 * links.length + 1 := by
    simp only [List.length_cons, List.length_append, length_written]
    omega
  rw [place, ← Nat.add_assoc] at answered
  show (Recipe.ask (.expression least)).run _ _ = _
  rw [Recipe.run_ask]
  exact answered

/-- In `a = b - c - d ;` the assignment is the root, and the last subtraction is on top of
the first one. -/
theorem assigned_difference_reads_splitTree :
    let a : Leaf .language := ⟨⟨.identifier, "a"⟩, .symbol "a", rfl, rfl⟩
    let b : Leaf .language := ⟨⟨.identifier, "b"⟩, .symbol "b", rfl, rfl⟩
    let c : Leaf .language := ⟨⟨.identifier, "c"⟩, .symbol "c", rfl, rfl⟩
    let d : Leaf .language := ⟨⟨.identifier, "d"⟩, .symbol "d", rfl, rfl⟩
    let becomes : Operator .language := ⟨⟨.assignment, "="⟩, .assignment, rfl, rfl⟩
    let minus : Operator .language := ⟨⟨.dash, "-"⟩, .binary, rfl, rfl⟩
    (Recipe.expression .lowest).perform .language
        ⟨0, a.token, written [(becomes, b), (minus, c), (minus, d)] ++ [⟨.semicolon, ";"⟩]⟩ =
      .accepted
        (.assignment a.value becomes.token
          (.binary (.binary b.value minus.token c.value) minus.token d.value))
        ⟨7, ⟨.semicolon, ";"⟩, []⟩ := by
  intro a b c d becomes minus
  have whole : rootSplit [(becomes, b), (minus, c), (minus, d)] =
      some ([], (becomes, b), [(minus, c), (minus, d)]) := rfl
  have differences : rootSplit [(minus, c), (minus, d)] = some ([(minus, c)], (minus, d), []) := rfl
  have difference : rootSplit [(minus, c)] = some ([], (minus, c), []) := rfl
  have read := expression_reads_splitTree.1 .language .lowest a
    [(becomes, b), (minus, c), (minus, d)] ⟨.semicolon, ";"⟩ [] 0 (by decide) (by decide)
  rw [splitTree_of_some whole, splitTree_of_none rfl, splitTree_of_some differences,
    splitTree_of_some difference, splitTree_of_none rfl, splitTree_of_none rfl,
    splitTree_of_none rfl] at read
  exact read

end ScriptReader
