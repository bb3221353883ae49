/- # ScriptReader.Proofs.CommaLists — lists with commas between their items

The elements of an array, the arguments of a call and the parameters of a function are lists:
items with commas between them, in brackets, and perhaps one comma behind the last item
(`ListItem.commaList`). The two phrases that read them differ only in their items and in the
bracket that closes them: they are one recipe (`Recipe.list`), and what is proved of it here is
proved of both.

An item is taken in front of a comma; it is taken just as well in front of the closing bracket
or in front of whatever else does not go on from it. So a list is read item by item and a comma
at its end makes no difference (`Recipe.Lists.reads_commaList`). In front of an item the reader
asks for the item, behind it for a comma or the closing bracket. So a comma is refused where an
item should begin (`Recipe.Lists.refuses_comma_first`), and where a comma is missing the next
item is refused if it does not go on from the one in front of it (`Recipe.Lists.refuses_apart`).

The recipes that read a list in brackets go on behind the closing one with what they make of all
the items; `Recipe.ReadsLists` says all this of one of them, and `comma_lists_keep_items` of all.
-/
import ScriptReader.Proofs.Bordering
import ScriptReader.Proofs.Chains

namespace ScriptReader

set_option autoImplicit false

/-! ## Lists as they are written -/

/-- What is taken in front of a comma: its tokens and what it stands for, and the text of that
comma. -/
structure ListItem {α : Type} (takes : List Token → Token → α → Prop) where
  tokens : List Token
  comma : String
  value : α
  taken : takes tokens ⟨.comma, comma⟩ value

namespace ListItem

variable {α : Type} {takes : List Token → Token → α → Prop}

/-- An item with its comma. -/
def followed (item : ListItem takes) : List Token := item.tokens ++ [⟨.comma, item.comma⟩]

/-- Items with commas between them, and perhaps one behind the last. -/
def commaList (front : List (ListItem takes)) (last : ListItem takes) (trailing : Bool) :
    List Token :=
  front.flatMap followed ++ if trailing then last.followed else last.tokens

end ListItem

/-- A name and, behind a colon, a type that is taken in front of the comma. -/
inductive IsParameter : List Token → Token → Parameter → Prop
  | typed {name colon : String} {tokens : List Token} {comma : Token} {type : TypeExpr}
      (taken : (Phrase.type .lowest).TakenUpTo tokens comma type) :
      IsParameter (⟨.identifier, name⟩ :: ⟨.colon, colon⟩ :: tokens) comma ⟨name, type⟩

namespace Recipe

variable {α β : Type}

/-! ## One recipe for all lists -/

/-- Items up to the closing bracket, one at a time. -/
def list (close : TokenKind) (item : Recipe α) (again : Recipe (List α)) : Recipe (List α) := do
  let next ← kind
  if next = .endOfInput ∨ next = close then return []
  else
    let first ← item
    separator close
    let rest ← again
    return first :: rest

/-- A parameter: its name and, behind a colon, its type. -/
def parameter : Recipe Parameter := do
  let name ← expectText .identifier
  let _ ← expect .colon
  let type ← type .lowest
  return ⟨name, type⟩

/-- What is read between two brackets. -/
def between (opening close : TokenKind) (content : Recipe α) : Recipe α := do
  let _ ← expect opening
  let value ← content
  let _ ← expect close
  return value

/-- What is read of a function behind its parameters. -/
def functionBehind (parameters : List Parameter) : Recipe (Signature × List Statement) := do
  let result ← optional .colon (type .lowest)
  let body ← block
  return (⟨parameters, result⟩, body)

theorem parametersPhrase_eq : parametersPhrase = list .closeParen parameter parameters := by
  simp only [parametersPhrase, list, parameter, bind_eq, bind_assoc]
  rfl

theorem array_eq : array = between .openBracket .closeBracket (arguments .closeBracket) >>=
    fun elements => .yield (.array elements) := rfl

theorem call_eq (callee : Expr) :
    call callee = between .openParen .closeParen (arguments .closeParen) >>=
      fun arguments => .yield (.call callee arguments) := rfl

theorem functionRest_eq :
    functionRest = between .openParen .closeParen parameters >>= functionBehind := by
  simp only [functionRest, between, bind_eq, bind_assoc]
  rfl

/-! ## Items in front of others -/

section Lists

variable {takes : List Token → Token → α → Prop} {opening close : TokenKind} {item : Recipe α}
  {again : Recipe (List α)} {missing : Cause} {ahead middle behind left rest stop : List Token}
  {cause : Cause}

/-- `again` reads a list of items. What is taken in front of a comma is read as an item in front of
anything that does not go on from it, and `missing` is why a comma is no item. -/
structure Lists (close : TokenKind) (item : Recipe α) (again : Recipe (List α))
    (takes : List Token → Token → α → Prop) (missing : Cause) : Prop where
  closing : close ∈ [.closeParen, .closeBracket]
  careful : ∀ current, again.Careful current
  reads_nil : ∀ {left}, EndsList close left → again.Reads (Phrase.Reads .language) left [] left
  reads_cons : ∀ {ahead middle behind left value others},
    item.Reads (Phrase.Reads .language) ahead value middle →
    (separator close).Reads (Phrase.Reads .language) middle () behind →
    again.Reads (Phrase.Reads .language) behind others left →
      again.Reads (Phrase.Reads .language) ahead (value :: others) left
  refuses : ∀ {ahead cause stop}, (list close item again).Refuses (Phrase.Reads .language)
    (Phrase.Refuses .language) ahead cause stop →
      again.Refuses (Phrase.Reads .language) (Phrase.Refuses .language) ahead cause stop
  takes_reads : ∀ {tokens comma value left}, takes tokens comma value → Stops .lowest left →
    item.Reads (Phrase.Reads .language) (tokens ++ left) value left
  begins : ∀ {ahead value left}, item.Reads (Phrase.Reads .language) ahead value left →
    ∃ token rest, ahead = token :: rest ∧ token.kind ∉ .comma :: TokenKind.endings
  refuses_comma : ∀ text rest, item.Refuses (Phrase.Reads .language) (Phrase.Refuses .language)
    (⟨.comma, text⟩ :: rest) missing (⟨.comma, text⟩ :: rest)

namespace Lists

variable (lists : Lists close item again takes missing)
include lists

theorem close_mem_endings : close ∈ TokenKind.endings := by
  have closing := lists.closing
  revert closing
  cases close <;> decide

theorem close_ne_comma : close ≠ .comma := by
  rintro rfl
  exact absurd lists.closing (by decide)

theorem close_ne_endOfInput : close ≠ .endOfInput := by
  rintro rfl
  exact absurd lists.closing (by decide)

/-- Whatever ends a list ends its last item. -/
theorem stops_of_ends (ends : EndsList close left) : Stops .lowest left := by
  obtain ⟨⟨kind, text⟩, rest, rfl, ends⟩ := ends
  have closing := lists.closing
  simp only [List.mem_cons, List.not_mem_nil, or_false] at closing
  rcases ends with rfl | rfl
  · exact stops_of_kind rfl
  · rcases closing with rfl | rfl
    · exact stops_of_kind rfl
    · exact stops_of_kind rfl

/-- The list does not end where an item begins. -/
theorem goes_on {token : Token} (begins : token.kind ∉ .comma :: TokenKind.endings) :
    ¬ (token.kind = .endOfInput ∨ token.kind = close) := by
  have other : token.kind ∉ TokenKind.endings := fun ends => begins (List.mem_cons_of_mem _ ends)
  exact not_or.mpr ⟨TokenKind.ne_of_not_mem_endings other (by decide),
    TokenKind.ne_of_not_mem_endings other lists.close_mem_endings⟩

theorem reads_item (first : ListItem takes) (stops : Stops .lowest left) :
    item.Reads (Phrase.Reads .language) (first.tokens ++ left) first.value left :=
  lists.takes_reads first.taken stops

/-- Behind an item with its comma a list goes on. -/
theorem reads_followed (first : ListItem takes) {others : List α}
    (more : again.Reads (Phrase.Reads .language) rest others left) :
    again.Reads (Phrase.Reads .language) (first.followed ++ rest) (first.value :: others) left := by
  rw [ListItem.followed, List.append_assoc, List.singleton_append]
  exact lists.reads_cons (lists.reads_item first (stops_of_kind rfl))
    (reads_separator_comma lists.close_ne_comma) more

/-- A list is read item by item; a comma behind the last one makes no difference. -/
theorem reads_commaList (front : List (ListItem takes)) (last : ListItem takes) (trailing : Bool)
    (ends : EndsList close left) :
    again.Reads (Phrase.Reads .language) (ListItem.commaList front last trailing ++ left)
      ((front ++ [last]).map ListItem.value) left := by
  have nil := lists.reads_nil ends
  rw [ListItem.commaList]
  induction front with
  | nil =>
      cases trailing with
      | true => exact lists.reads_followed last nil
      | false =>
          exact lists.reads_cons (lists.reads_item last (lists.stops_of_ends ends))
            (reads_separator_of_ends ends) nil
  | cons first front ih =>
      rw [List.flatMap_cons, List.append_assoc, List.append_assoc]
      rw [List.append_assoc] at ih
      exact lists.reads_followed first ih

/-! ## What is missing in a list -/

/-- What is refused behind an item is refused in the list. -/
theorem refuses_of_item {value : α} (read : item.Reads (Phrase.Reads .language) ahead value middle)
    (refused : (do
      separator close
      let others ← again
      return value :: others : Recipe (List α)).Refuses (Phrase.Reads .language)
        (Phrase.Refuses .language) middle cause stop) :
    again.Refuses (Phrase.Reads .language) (Phrase.Refuses .language) ahead cause stop := by
  obtain ⟨token, rest, rfl, begins⟩ := lists.begins read
  refine lists.refuses (refuses_kind_bind.mpr ?_)
  rw [if_neg (lists.goes_on begins)]
  exact refuses_bind.mpr (.inr ⟨value, middle, read, refused⟩)

theorem refuses_followed (first : ListItem takes)
    (refused : again.Refuses (Phrase.Reads .language) (Phrase.Refuses .language) rest cause stop) :
    again.Refuses (Phrase.Reads .language) (Phrase.Refuses .language) (first.followed ++ rest) cause
      stop := by
  rw [ListItem.followed, List.append_assoc, List.singleton_append]
  exact lists.refuses_of_item (lists.reads_item first (stops_of_kind rfl))
    (refuses_bind.mpr (.inr ⟨(), rest, reads_separator_comma lists.close_ne_comma,
      refuses_bind.mpr (.inl refused)⟩))

/-- What is refused behind some items with their commas is refused in the list. -/
theorem refuses_behind (front : List (ListItem takes))
    (refused : again.Refuses (Phrase.Reads .language) (Phrase.Refuses .language) rest cause stop) :
    again.Refuses (Phrase.Reads .language) (Phrase.Refuses .language)
      (front.flatMap ListItem.followed ++ rest) cause stop := by
  induction front with
  | nil => exact refused
  | cons first front ih =>
      rw [List.flatMap_cons, List.append_assoc]
      exact lists.refuses_followed first ih

/-- Where an item should begin, a comma is refused. -/
theorem refuses_comma_first (text : String) (rest : List Token) :
    again.Refuses (Phrase.Reads .language) (Phrase.Refuses .language) (⟨.comma, text⟩ :: rest)
      missing (⟨.comma, text⟩ :: rest) := by
  have goesOn : ¬ (TokenKind.comma = .endOfInput ∨ TokenKind.comma = close) :=
    not_or.mpr ⟨by decide, lists.close_ne_comma.symm⟩
  refine lists.refuses (refuses_kind_bind.mpr ?_)
  rw [if_neg goesOn]
  exact refuses_bind.mpr (.inl (lists.refuses_comma text rest))

/-- Behind an item, the beginning of another is refused, unless it goes on from the first. -/
theorem refuses_apart (first another : ListItem takes) {token : Token} {more : List Token}
    (begins : another.tokens = token :: more)
    (stops : Tables.language.power token.kind = .lowest) (rest : List Token) :
    again.Refuses (Phrase.Reads .language) (Phrase.Refuses .language)
      (first.tokens ++ (another.tokens ++ rest)) (.unexpected .comma token.kind)
      (another.tokens ++ rest) := by
  have comma : Stops .lowest [⟨.comma, another.comma⟩] := stops_of_kind rfl
  obtain ⟨_, _, same, opens⟩ := lists.begins (lists.reads_item another comma)
  rw [begins] at same ⊢
  cases same
  refine lists.refuses_of_item (lists.reads_item first (stops_of_kind stops))
    (refuses_bind.mpr (.inl ?_))
  exact refuses_separator (lists.goes_on opens) (List.ne_of_not_mem_cons opens)

end Lists

end Lists

/-! ## Arguments and parameters -/

theorem lists_arguments {close : TokenKind} (closing : close ∈ [.closeParen, .closeBracket]) :
    Lists close (expression .assignment) (arguments close) (Phrase.expression .assignment).TakenUpTo
      (.expectedExpression .comma) where
  closing := closing
  careful := fun _ => careful_ask trivial
  reads_nil := fun ends => reads_arguments.mpr (Phrase.reads_arguments_of_ends ends)
  reads_cons := fun read apart more => reads_arguments.mpr
    (Phrase.reads_arguments_cons closing (reads_expression.mp read) apart (reads_arguments.mp more))
  refuses := fun refused => refuses_ask.mpr (Phrase.refuses_iff.mpr refused)
  takes_reads := fun taken stops =>
    reads_expression.mpr ((taken.reads (fun _ => trivial) []).in_front_of stops)
  begins := by
    intro ahead value left read
    have apart (rule : PrefixRule) : ∀ kind ∈ rule.kinds, kind ∉ .comma :: TokenKind.endings := by
      cases rule <;> decide
    obtain ⟨token, rest, _, _, _, rfl, found, -⟩ :=
      reads_expressionPhrase.mp (Phrase.reads_iff.mp (reads_expression.mp read))
    obtain ⟨rule, member, -⟩ := Tables.language_prefixRule_iff.mp found
    exact ⟨token, rest, rfl, apart rule _ member⟩
  refuses_comma := by
    intro text rest
    have none : Tables.language.prefixRule .comma = none := rfl
    refine refuses_ask.mpr (Phrase.refuses_iff.mpr (refuses_kind_bind.mpr ?_))
    rw [none]
    exact refuses_refuseKind

theorem reads_parameter {readings : Readings} {ahead left : List Token} {value : Parameter} :
    parameter.Reads readings ahead value left ↔
      ∃ name colon rest type, ahead = ⟨.identifier, name⟩ :: ⟨.colon, colon⟩ :: rest ∧
        readings (.type .lowest) rest type left ∧ value = ⟨name, type⟩ := by
  simp only [parameter, reads_bind, reads_expectText, reads_expect, reads_type, reads_pure]
  constructor
  · rintro ⟨name, _, rfl, ⟨_, colon⟩, rest, ⟨rfl, rfl⟩, type, _, read, rfl, rfl⟩
    exact ⟨name, colon, rest, type, rfl, read, rfl⟩
  · rintro ⟨name, colon, rest, type, rfl, read, rfl⟩
    exact ⟨name, _, rfl, _, rest, ⟨rfl, rfl⟩, type, left, read, rfl, rfl⟩

theorem lists_parameters : Lists .closeParen parameter parameters IsParameter
    (.unexpected .identifier .comma) where
  closing := by decide
  careful := fun _ => careful_ask trivial
  reads_nil := fun ends => reads_parameters.mpr (Phrase.reads_parameters_of_ends ends)
  reads_cons := by
    intro ahead middle behind left value others read apart more
    obtain ⟨name, colon, rest, type, rfl, typed, rfl⟩ := reads_parameter.mp read
    exact reads_parameters.mpr
      (Phrase.reads_parameters_cons typed apart (reads_parameters.mp more))
  refuses := by
    intro ahead cause stop refused
    rw [← parametersPhrase_eq] at refused
    exact refuses_ask.mpr (Phrase.refuses_iff.mpr refused)
  takes_reads := by
    rintro _ comma _ left ⟨taken⟩ stops
    have follows : (Phrase.type .lowest).Follows left := stops.ne_nil
    have read := (taken.reads (fun _ => trivial) []).in_front_of follows
    exact reads_parameter.mpr ⟨_, _, _, _, rfl, read, rfl⟩
  begins := by
    intro ahead value left read
    have apart : TokenKind.identifier ∉ .comma :: TokenKind.endings := by decide
    obtain ⟨name, colon, rest, type, rfl, -⟩ := reads_parameter.mp read
    exact ⟨⟨.identifier, name⟩, _, rfl, apart⟩
  refuses_comma := by
    intro text rest
    have other : TokenKind.comma ≠ .identifier := by decide
    exact refuses_bind.mpr (.inl (refuses_bind.mpr (.inl (refuses_expect other))))

/-! ## Lists in brackets -/

section Between

variable {opening close : TokenKind} {content : Recipe α} {readings : Readings}
  {refusals : Refusals} {ahead left stop : List Token} {cause : Cause}

theorem reads_between_of {value : α} {opens closes : String}
    (read : content.Reads readings ahead value (⟨close, closes⟩ :: left)) :
    (between opening close content).Reads readings (⟨opening, opens⟩ :: ahead) value left :=
  reads_bind.mpr ⟨_, ahead, reads_expect.mpr ⟨rfl, rfl⟩, reads_bind.mpr ⟨value, _, read,
    reads_bind.mpr ⟨_, left, reads_expect.mpr ⟨rfl, rfl⟩, rfl, rfl⟩⟩⟩

theorem refuses_between {opens : String}
    (refused : content.Refuses readings refusals ahead cause stop) :
    (between opening close content).Refuses readings refusals (⟨opening, opens⟩ :: ahead) cause
      stop :=
  refuses_bind.mpr (.inr ⟨_, ahead, reads_expect.mpr ⟨rfl, rfl⟩, refuses_bind.mpr (.inl refused)⟩)

end Between

/-- Between the brackets the recipe reads lists of what is taken as an item: it keeps all items and
no comma, and goes on with the items behind the closing bracket. Where an item should begin it
refuses a comma, and where a comma should stand it refuses an item that does not go on from the
one in front of it. -/
structure ReadsLists (recipe : Recipe β) (opening close : TokenKind)
    (takes : List Token → Token → α → Prop) (next : List α → Recipe β) (missing : Cause) :
    Prop where
  keeps_items : ∀ (front : List (ListItem takes)) (last : ListItem takes) (trailing : Bool)
    (opens closes : String) (rest : List Token) (index : Nat),
    let list := ListItem.commaList front last trailing
    (Cursor.facing index (⟨opening, opens⟩ :: (list ++ ⟨close, closes⟩ :: rest))).Ended →
      recipe.perform .language
          (.facing index (⟨opening, opens⟩ :: (list ++ ⟨close, closes⟩ :: rest))) =
        (next ((front ++ [last]).map ListItem.value)).perform .language
          (.facing (index + (list.length + 2)) rest)
  refuses_comma : ∀ (front : List (ListItem takes)) (opens comma : String) (rest : List Token)
    (index : Nat),
    let list := front.flatMap ListItem.followed
    (Cursor.facing index (⟨opening, opens⟩ :: (list ++ ⟨.comma, comma⟩ :: rest))).Ended →
      ∃ cursor, recipe.perform .language
          (.facing index (⟨opening, opens⟩ :: (list ++ ⟨.comma, comma⟩ :: rest))) =
        .refused ⟨missing, .token (index + (list.length + 1))⟩ cursor
  refuses_missing : ∀ (front : List (ListItem takes)) (last another : ListItem takes) (token : Token)
    (more : List Token) (opens : String) (rest : List Token) (index : Nat),
    let list := ListItem.commaList front last false
    another.tokens = token :: more → Tables.language.power token.kind = .lowest →
    (Cursor.facing index (⟨opening, opens⟩ :: (list ++ (another.tokens ++ rest)))).Ended →
      ∃ cursor, recipe.perform .language
          (.facing index (⟨opening, opens⟩ :: (list ++ (another.tokens ++ rest)))) =
        .refused ⟨.unexpected .comma token.kind, .token (index + (list.length + 1))⟩ cursor

theorem length_behind (bracket : Token) (list stop : List Token) :
    (bracket :: (list ++ stop)).length - stop.length = list.length + 1 := by
  simp only [List.length_cons, List.length_append]
  omega

/-- A recipe that goes on behind a list in brackets reads lists. -/
theorem Lists.readsLists {takes : List Token → Token → α → Prop} {opening close : TokenKind}
    {item : Recipe α} {again : Recipe (List α)} {missing : Cause} {next : List α → Recipe β}
    (lists : Lists close item again takes missing) (opens : opening ≠ .endOfInput)
    (careful : ∀ values current, (next values).Careful current) :
    ReadsLists (between opening close again >>= next) opening close takes next missing := by
  have within : ∀ current, (between opening close again >>= next).Careful current := fun _ =>
    .bind (.bind (careful_expect opens) fun _ _ => .bind (lists.careful _) fun _ _ =>
      .bind (careful_expect lists.close_ne_endOfInput) fun _ _ => trivial) fun _ _ => careful _ _
  refine ⟨?_, ?_, ?_⟩
  · intro front last trailing opens closes rest index list ended
    have read := lists.reads_commaList front last trailing
      (endsList_close : EndsList close (⟨close, closes⟩ :: rest))
    have more : rest ≠ [] := by
      rintro rfl
      rw [Cursor.Ended, Cursor.ahead_facing (by simp), ← List.cons_append,
        List.getLast?_concat] at ended
      exact lists.close_ne_endOfInput (Option.some.inj ended)
    have length : (⟨opening, opens⟩ :: (list ++ ⟨close, closes⟩ :: rest)).length - rest.length =
        list.length + 2 := by
      simp only [List.length_cons, List.length_append]
      omega
    rw [perform_bind_of_reads .language ended (within _) (careful _) (reads_between_of read) more,
      length]
  · intro front opens comma rest index list ended
    have refused := lists.refuses_behind front (lists.refuses_comma_first comma rest)
    have performed := perform_of_refuses .language ended (within _)
      (refuses_bind.mpr (.inl (refuses_between refused))) (List.cons_ne_nil _ _)
    rwa [length_behind] at performed
  · intro front last another token more opens rest index list begins stops ended
    have refused := lists.refuses_behind front
      (lists.refuses_apart last another begins stops rest)
    rw [← List.append_assoc] at refused
    have some : another.tokens ++ rest ≠ [] := by simp [begins]
    have performed := perform_of_refuses .language ended (within _)
      (refuses_bind.mpr (.inl (refuses_between refused))) some
    rwa [length_behind] at performed

theorem careful_functionBehind {parameters : List Parameter} {current : Token} :
    (functionBehind parameters).Careful current :=
  .bind (careful_optional (by decide) fun _ => careful_ask trivial) fun _ _ =>
    .bind careful_block fun _ _ => trivial

end Recipe

/-- **Lists keep every item, and a comma at the end makes no difference.** The elements of an array,
the arguments of a call and the parameters of a function are all items between the brackets, which
are read to the closing one; what follows them is read as it would be anyway. A comma in front of
the first item or of another comma is refused, and so is an item that a comma should stand in
front of, if it begins with a token that does not go on from an expression. -/
theorem comma_lists_keep_items :
    Recipe.ReadsLists .array .openBracket .closeBracket (Phrase.expression .assignment).TakenUpTo
        (fun elements => .yield (.array elements)) (.expectedExpression .comma) ∧
      (∀ callee, Recipe.ReadsLists (.call callee) .openParen .closeParen
        (Phrase.expression .assignment).TakenUpTo (fun arguments => .yield (.call callee arguments))
        (.expectedExpression .comma)) ∧
      Recipe.ReadsLists .functionRest .openParen .closeParen IsParameter .functionBehind
        (.unexpected .identifier .comma) := by
  refine ⟨?_, fun callee => ?_, ?_⟩
  · rw [Recipe.array_eq]
    exact (Recipe.lists_arguments (by decide)).readsLists (by decide) fun _ _ => trivial
  · rw [Recipe.call_eq]
    exact (Recipe.lists_arguments (by decide)).readsLists (by decide) fun _ _ => trivial
  · rw [Recipe.functionRest_eq]
    exact Recipe.lists_parameters.readsLists (by decide) fun _ _ => Recipe.careful_functionBehind

/-- `[ a , b + c , ]` in front of a semicolon, `( a , , b + c )`, and parameters without a comma. -/
theorem comma_lists_of_sum_and_parameters :
    let sum : Expr := .binary (.symbol "b") ⟨.plus, "+"⟩ (.symbol "c")
    Recipe.array.perform .language
        (.facing 2 [⟨.openBracket, "["⟩, ⟨.identifier, "a"⟩, ⟨.comma, ","⟩, ⟨.identifier, "b"⟩,
          ⟨.plus, "+"⟩, ⟨.identifier, "c"⟩, ⟨.comma, ","⟩, ⟨.closeBracket, "]"⟩, ⟨.semicolon, ";"⟩,
          .endOfInput]) =
        .accepted (.array [.symbol "a", sum]) (.facing 10 [⟨.semicolon, ";"⟩, .endOfInput]) ∧
      (∃ cursor, (Recipe.call (.symbol "f")).perform .language
        (.facing 1 [⟨.openParen, "("⟩, ⟨.identifier, "a"⟩, ⟨.comma, ","⟩, ⟨.comma, ","⟩,
          ⟨.identifier, "b"⟩, ⟨.plus, "+"⟩, ⟨.identifier, "c"⟩, ⟨.closeParen, ")"⟩, .endOfInput]) =
        .refused ⟨.expectedExpression .comma, .token 4⟩ cursor) ∧
      ∃ cursor, Recipe.functionRest.perform .language
        (.facing 0 [⟨.openParen, "("⟩, ⟨.identifier, "x"⟩, ⟨.colon, ":"⟩, ⟨.identifier, "n"⟩,
          ⟨.identifier, "y"⟩, ⟨.colon, ":"⟩, ⟨.openBracket, "["⟩, ⟨.closeBracket, "]"⟩,
          ⟨.identifier, "n"⟩, ⟨.closeParen, ")"⟩, .endOfInput]) =
        .refused ⟨.unexpected .comma .identifier, .token 4⟩ cursor := by
  intro sum
  let first : ListItem (Phrase.expression .assignment).TakenUpTo :=
    ⟨[⟨.identifier, "a"⟩], ",", .symbol "a", 0, [.endOfInput], rfl, by cbv⟩
  let second : ListItem (Phrase.expression .assignment).TakenUpTo :=
    ⟨[⟨.identifier, "b"⟩, ⟨.plus, "+"⟩, ⟨.identifier, "c"⟩], ",", sum, 0, [.endOfInput], rfl,
      by cbv⟩
  let number : ListItem IsParameter :=
    ⟨[⟨.identifier, "x"⟩, ⟨.colon, ":"⟩, ⟨.identifier, "n"⟩], ",", ⟨"x", .name "n"⟩,
      .typed ⟨0, [.endOfInput], rfl, by cbv⟩⟩
  let numbers : ListItem IsParameter :=
    ⟨[⟨.identifier, "y"⟩, ⟨.colon, ":"⟩, ⟨.openBracket, "["⟩, ⟨.closeBracket, "]"⟩,
      ⟨.identifier, "n"⟩], ",", ⟨"y", .list (.name "n")⟩, .typed ⟨0, [.endOfInput], rfl, by cbv⟩⟩
  let closing : List Token := [⟨.closeParen, ")"⟩, .endOfInput]
  obtain ⟨arrays, calls, functions⟩ := comma_lists_keep_items
  have kept := arrays.keeps_items [first] second true "[" "]" [⟨.semicolon, ";"⟩, .endOfInput] 2 rfl
  have doubled := (calls (.symbol "f")).refuses_comma [first] "(" "," (second.tokens ++ closing) 1
    rfl
  have missing := functions.refuses_missing [] number numbers ⟨.identifier, "y"⟩ _ "(" closing 0 rfl
    rfl rfl
  exact ⟨kept, doubled, missing⟩

end ScriptReader
