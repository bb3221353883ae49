/- # ScriptReader.Proofs.LongestMatch — the first match is the longest match

Rules are tried in order, and the first one that takes something wins. Another scanner
could ask every rule, in any order, and go on with the piece that has the most bytes
(`Lexeme.longest?`). Both cut every text alike (`first_match_is_longest_match`).

What makes them agree is the order of the rules: of two rules that both take something
from a text, what the later one takes is a proper beginning of what the earlier one takes
(`rules_pairwise_outreach`). Most pairs never meet, since no character opens both; what is
left are a quote with and without its partner, a comment and the signs that begin with a
slash, and signs that begin with other signs.
-/
import ScriptReader.Proofs.Lines
import ScriptReader.Proofs.Scanning

namespace ScriptReader

set_option autoImplicit false

theorem Text.byteSize_lt_append {text more : List Char} (some : more ≠ []) :
    byteSize text < byteSize (text ++ more) := by
  have positive := List.length_pos_iff.mpr some
  have least := length_le_byteSize more
  rw [byteSize_append]
  omega

namespace Lexeme

open Text (byteSize)

/-! ## Rules that reach further -/

/-- Wherever both rules take something, what the other one takes is a proper beginning of what
this one takes. -/
def Rule.Outreaches (rule other : Rule) : Prop :=
  ∀ input lexeme piece, rule.lexeme? input = some lexeme → other.lexeme? input = some piece →
    ∃ more, more ≠ [] ∧ lexeme = piece ++ more

variable {rule other : Rule} {sign later : Sign}

theorem Rule.exists_opens {input lexeme : List Char} (taken : rule.lexeme? input = some lexeme) :
    ∃ c rest, input = c :: rest ∧ rule.opens c = true := by
  obtain ⟨rest, rfl, fits⟩ := Rule.lexeme?_eq_some_iff.mp taken
  obtain ⟨c, others, rfl, opens⟩ := fits.exists_cons
  exact ⟨c, others ++ rest, rfl, opens⟩

/-- Rules that no character opens both never meet. -/
theorem outreaches_of_apart
    (apart : ∀ c, rule.opens c = true → other.opens c = true → False) :
    rule.Outreaches other := by
  intro input lexeme piece taken taken'
  obtain ⟨c, rest, rfl, opens⟩ := Rule.exists_opens taken
  obtain ⟨d, rest', same, opens'⟩ := Rule.exists_opens taken'
  cases same
  exact absurd opens' (apart c opens)

theorem closedText_outreaches_openText : Rule.closedText.Outreaches .openText := by
  intro input lexeme piece taken taken'
  obtain ⟨rest, -, content, -, rfl⟩ := Rule.lexeme?_eq_some_iff.mp taken
  obtain ⟨rest', -, rfl⟩ := Rule.lexeme?_eq_some_iff.mp taken'
  exact ⟨content ++ ['"'], by simp, rfl⟩

/-- The rules for pieces of varying length. -/
def varyingRules : List Rule := [.blank, .comment, .closedText, .openText, .number, .word]

theorem varying_outreaches (varying : other ∈ varyingRules) (before : rule ∈ other.earlier) :
    rule.Outreaches other := by
  by_cases quote : other = .openText
  · subst quote
    by_cases closed : rule = .closedText
    · subst closed
      exact closedText_outreaches_openText
    · -- A quote opens text with and without a partner alike, and nothing that is tried before.
      have before' : rule ∈ Rule.closedText.earlier := by
        have among : rule ∈ [Rule.blank, .comment, .closedText] := before
        change rule ∈ [Rule.blank, .comment]
        simpa [closed] using among
      apply outreaches_of_apart
      intro c opens opens'
      have quoted : Rule.closedText ∈ distinctRules := by decide
      have shut := opens_earlier quoted opens' before'
      exact absurd opens (Bool.eq_false_iff.mp shut)
  · have distinct : other ∈ distinctRules := by
      simpa [varyingRules, distinctRules, quote] using varying
    apply outreaches_of_apart
    intro c opens opens'
    exact absurd opens (Bool.eq_false_iff.mp (opens_earlier distinct opens' before))

/-! ## Signs -/

/-- A sign begins with no white space, quote, digit or letter. -/
theorem opens_of_sign (listed : sign ∈ signs) {c : Char}
    (opens : (Rule.fixed sign).opens c = true) :
    ∀ rule ∈ varyingRules, rule ≠ .comment → rule.opens c = false := by
  have shut : ∀ sign ∈ signs, ∀ rule ∈ varyingRules, rule ≠ .comment →
      sign.pattern.toList.head?.all (fun c => !rule.opens c) = true := by
    decide +kernel
  intro rule varying other
  have head : sign.pattern.toList.head? = some c := of_decide_eq_true opens
  have apart := shut sign listed rule varying other
  rw [head] at apart
  simpa using apart

theorem not_slashes_prefix (listed : sign ∈ signs) : ¬ ['/', '/'] <+: sign.pattern.toList := by
  have none : ∀ sign ∈ signs, ¬ ['/', '/'] <+: sign.pattern.toList := by decide +kernel
  exact none sign listed

theorem comment_outreaches_sign (listed : sign ∈ signs) :
    Rule.comment.Outreaches (.fixed sign) := by
  intro input lexeme piece taken taken'
  obtain ⟨rest, rfl, body, -, either⟩ := Rule.lexeme?_eq_some_iff.mp taken
  obtain ⟨rest', same, rfl⟩ := Rule.lexeme?_eq_some_iff.mp taken'
  obtain ⟨more, rfl⟩ : ∃ more, lexeme = ['/', '/'] ++ more := by
    rcases either with rfl | ⟨rfl, -⟩
    · exact ⟨body ++ ['\n'], by simp⟩
    · exact ⟨body, rfl⟩
  have apart := not_slashes_prefix listed
  -- The sign ends inside the two slashes.
  have left : ['/', '/'] <+: ['/', '/'] ++ more ++ rest := ⟨more ++ rest, by simp⟩
  have right : sign.pattern.toList <+: ['/', '/'] ++ more ++ rest := ⟨rest', same.symm⟩
  obtain ⟨others, whole⟩ := (List.prefix_or_prefix_of_prefix left right).resolve_left apart
  refine ⟨others ++ more, ?_, ?_⟩
  · intro none
    rw [(List.append_eq_nil_iff.mp none).1, List.append_nil] at whole
    exact apart (whole ▸ List.prefix_rfl)
  · rw [← whole, List.append_assoc]

theorem varying_outreaches_sign (listed : sign ∈ signs) (varying : rule ∈ varyingRules) :
    rule.Outreaches (.fixed sign) := by
  by_cases comment : rule = .comment
  · subst comment
    exact comment_outreaches_sign listed
  · apply outreaches_of_apart
    intro c opens opens'
    exact absurd opens (Bool.eq_false_iff.mp (opens_of_sign listed opens' rule varying comment))

/-- No sign is the beginning of one that is tried later. -/
theorem signs_pairwise : signs.Pairwise fun sign later =>
    ¬ sign.pattern.toList <+: later.pattern.toList := by
  decide +kernel

theorem sign_outreaches_sign (apart : ¬ sign.pattern.toList <+: later.pattern.toList) :
    (Rule.fixed sign).Outreaches (.fixed later) := by
  intro input lexeme piece taken taken'
  obtain ⟨rest, rfl, rfl⟩ := Rule.lexeme?_eq_some_iff.mp taken
  obtain ⟨rest', same, rfl⟩ := Rule.lexeme?_eq_some_iff.mp taken'
  have left : sign.pattern.toList <+: sign.pattern.toList ++ rest := List.prefix_append _ _
  have right : later.pattern.toList <+: sign.pattern.toList ++ rest := ⟨rest', same.symm⟩
  obtain ⟨more, whole⟩ := (List.prefix_or_prefix_of_prefix left right).resolve_left apart
  refine ⟨more, ?_, whole.symm⟩
  rintro rfl
  rw [List.append_nil] at whole
  exact apart (whole ▸ List.prefix_rfl)

/-- **Each rule outreaches all that are tried behind it.** -/
theorem rules_pairwise_outreach : rules.Pairwise Rule.Outreaches := by
  have inOrder : varyingRules.Pairwise fun rule other => rule ∈ other.earlier := by decide
  refine List.pairwise_append.mpr ⟨?_, ?_, ?_⟩
  · exact inOrder.imp_of_mem fun _ varying before => varying_outreaches varying before
  · exact List.pairwise_map.mpr (signs_pairwise.imp fun apart => sign_outreaches_sign apart)
  · intro rule varying other fixed
    obtain ⟨sign, listed, rfl⟩ := List.mem_map.mp fixed
    exact varying_outreaches_sign listed varying

/-- The first rule that takes something takes more than any other does. -/
theorem first?_outreaches {input lexeme piece : List Char} (taken : first? input = some (rule, lexeme))
    (listed : other ∈ rules) (differs : other ≠ rule) (taken' : other.lexeme? input = some piece) :
    ∃ more, more ≠ [] ∧ lexeme = piece ++ more := by
  obtain ⟨before, rule', behind, same, found, none⟩ := List.findSome?_eq_some_iff.mp taken
  obtain ⟨lexeme', found, pair⟩ := Option.map_eq_some_iff.mp found
  cases pair
  have ordered := same ▸ rules_pairwise_outreach
  rw [same] at listed
  rcases List.mem_append.mp listed with early | late
  · have missed := none other early
    rw [taken'] at missed
    cases missed
  · have late := (List.mem_cons.mp late).resolve_left differs
    have outreaches := (List.pairwise_cons.mp (List.pairwise_append.mp ordered).2.1).1 other late
    exact outreaches input lexeme piece found taken'

/-! ## The longest piece -/

/-- What the rules of a list take from the start of a text. -/
def candidates (order : List Rule) (input : List Char) : List (Rule × List Char) :=
  order.filterMap fun rule => (rule.lexeme? input).map (rule, ·)

/-- The candidate with the most bytes. -/
def longest? (order : List Rule) (input : List Char) : Option (Rule × List Char) :=
  (candidates order input).argmax fun candidate => byteSize candidate.2

variable {order : List Rule} {input lexeme : List Char}

theorem mem_candidates :
    (rule, lexeme) ∈ candidates order input ↔ rule ∈ order ∧ rule.lexeme? input = some lexeme := by
  simp only [candidates, List.mem_filterMap, Option.map_eq_some_iff, Prod.mk.injEq]
  constructor
  · rintro ⟨_, listed, _, taken, rfl, rfl⟩
    exact ⟨listed, taken⟩
  · rintro ⟨listed, taken⟩
    exact ⟨rule, listed, lexeme, taken, rfl, rfl⟩

theorem lexeme?_of_longest? (chosen : longest? order input = some (rule, lexeme)) :
    rule.lexeme? input = some lexeme :=
  (mem_candidates.mp (List.argmax_mem chosen)).2

/-- In whatever order the rules are asked, the longest piece is the first one. -/
theorem longest?_eq_first? (same : ∀ rule, rule ∈ order ↔ rule ∈ rules) (input : List Char) :
    longest? order input = first? input := by
  cases first : first? input with
  | none =>
      have none := List.findSome?_eq_none_iff.mp first
      refine List.argmax_eq_none.mpr (List.eq_nil_iff_forall_not_mem.mpr ?_)
      rintro ⟨rule, lexeme⟩ member
      obtain ⟨listed, taken⟩ := mem_candidates.mp member
      have missed := none rule ((same rule).mp listed)
      rw [taken] at missed
      cases missed
  | some found =>
      obtain ⟨rule, lexeme⟩ := found
      obtain ⟨listed, taken, -⟩ := first?_eq_some_iff.mp first
      have member : (rule, lexeme) ∈ candidates order input :=
        mem_candidates.mpr ⟨(same rule).mpr listed, taken⟩
      have present : longest? order input ≠ none := by
        intro none
        rw [List.argmax_eq_none.mp none] at member
        cases member
      obtain ⟨⟨other, piece⟩, chosen⟩ := Option.ne_none_iff_exists'.mp present
      obtain ⟨among, least, -⟩ := List.argmax_eq_some_iff.mp chosen
      obtain ⟨listed', taken'⟩ := mem_candidates.mp among
      have most : byteSize lexeme ≤ byteSize piece := least _ member
      rw [chosen]
      by_cases differs : other = rule
      · subst differs
        rw [taken] at taken'
        cases taken'
        rfl
      · obtain ⟨more, some, rfl⟩ :=
          first?_outreaches first ((same other).mp listed') differs taken'
        exact absurd most (Nat.not_le.mpr (Text.byteSize_lt_append some))

end Lexeme

namespace Scan

open Lexeme (Rule longest? rules first?)

/-! ## The scanner that takes the longest piece -/

/-- Take the longest piece: the token it stands for, if any, and the point behind it. -/
def stepLongest (order : List Rule) (point : Point) :
    Except Diagnostic (Option Token × Point) :=
  match longest? order point.rest with
  | none => .error ⟨.unrecognised (String.ofList (point.rest.take 1)), point.place⟩
  | some (rule, lexeme) =>
    let next := point.past rule lexeme
    match rule.token? lexeme next.rest with
    | .error cause => .error ⟨cause, point.place⟩
    | .ok token => .ok (token, next)

theorem stepLongest_rest_lt {order : List Rule} {point next : Point} {token : Option Token}
    (stepped : stepLongest order point = .ok (token, next)) :
    next.rest.length < point.rest.length := by
  unfold stepLongest at stepped
  split at stepped
  · cases stepped
  · rename_i rule lexeme chosen
    dsimp only at stepped
    split at stepped
    · cases stepped
    · cases stepped
      exact Point.past_rest_lt (Lexeme.lexeme?_of_longest? chosen)

/-- Step from a point to the end of the text, always by the longest piece. -/
def scanLongestFrom (order : List Rule) (point : Point) : Except Diagnostic Scanned :=
  if point.rest = [] then .ok ⟨[.endOfInput], point.line⟩
  else
    match stepped : stepLongest order point with
    | .error diagnostic => .error diagnostic
    | .ok (token, next) =>
      have := stepLongest_rest_lt stepped
      match scanLongestFrom order next with
      | .error diagnostic => .error diagnostic
      | .ok scanned => .ok ⟨token.toList ++ scanned.tokens, scanned.lines⟩
termination_by point.rest.length

variable {order : List Rule}

theorem stepLongest_eq_step (same : ∀ rule, rule ∈ order ↔ rule ∈ rules) (point : Point) :
    stepLongest order point = step point := by
  rw [stepLongest, Lexeme.longest?_eq_first? same]
  rfl

theorem scanLongestFrom_eq_scanFrom (same : ∀ rule, rule ∈ order ↔ rule ∈ rules) (point : Point) :
    scanLongestFrom order point = scanFrom point := by
  generalize count : point.rest.length = size
  induction size using Nat.strongRecOn generalizing point with
  | _ size ih =>
    by_cases none : point.rest = []
    · rw [scanLongestFrom, if_pos none, scanFrom_of_end none]
    · rw [scanLongestFrom, if_neg none]
      split
      · rename_i diagnostic refused
        rw [stepLongest_eq_step same] at refused
        rw [scanFrom_of_refused none refused]
      · rename_i token next stepped
        have short := stepLongest_rest_lt stepped
        rw [stepLongest_eq_step same] at stepped
        rw [scanFrom_of_step stepped, ih next.rest.length (count ▸ short) next rfl]
        cases scanFrom next <;> rfl

end Scan

open Lexeme (Rule rules first?)

/-- The tokens of a text, taken by the longest piece that the rules of a list allow. -/
def tokenizeLongest (order : List Rule) (source : String) : Except Diagnostic (List Token) :=
  (Scan.scanLongestFrom order (.start source.toList)).map Scan.Scanned.tokens

/-- **The first match is the longest match.** Wherever a rule takes something, the first rule
that does so takes what every other rule takes and at least one more byte. The scanner that
goes by the longest piece, and asks the rules in any order, therefore finds the same tokens
and refuses the same texts, for the same reasons in the same places. -/
theorem first_match_is_longest_match :
    (∀ input rule lexeme, rule ∈ rules → rule.lexeme? input = some lexeme →
      ∃ first taken, first? input = some (first, taken) ∧
        (rule ≠ first → lexeme <+: taken ∧ Text.byteSize lexeme < Text.byteSize taken)) ∧
    ∀ order : List Rule, (∀ rule, rule ∈ order ↔ rule ∈ rules) →
      ∀ source, tokenizeLongest order source = tokenize source := by
  refine ⟨?_, ?_⟩
  · intro input rule lexeme listed taken
    cases found : first? input with
    | none =>
        have missed := List.findSome?_eq_none_iff.mp found rule listed
        rw [taken] at missed
        cases missed
    | some first =>
        obtain ⟨first, whole⟩ := first
        refine ⟨first, whole, rfl, fun differs => ?_⟩
        obtain ⟨more, some, rfl⟩ := Lexeme.first?_outreaches found listed differs taken
        exact ⟨List.prefix_append _ _, Text.byteSize_lt_append some⟩
  · intro order same source
    rw [tokenizeLongest, Scan.scanLongestFrom_eq_scanFrom same]
    rfl

/-- A comment that a sign could begin, and the rules asked from the last to the first. -/
theorem first_match_at_comment :
    ("/".toList <+: "// y".toList ∧ Text.byteSize "/".toList < Text.byteSize "// y".toList) ∧
      (∀ rule, rule ∈ rules.reverse ↔ rule ∈ rules) ∧
      tokenizeLongest rules.reverse "x ??= 1..2 // y" = tokenize "x ??= 1..2 // y" ∧
      tokenize "x ??= 1..2 // y" =
        .ok [⟨.identifier, "x"⟩, ⟨.nullishAssignment, "??="⟩, ⟨.number, "1"⟩, ⟨.dotDot, ".."⟩,
          ⟨.number, "2"⟩, .endOfInput] := by
  have same : ∀ rule, rule ∈ rules.reverse ↔ rule ∈ rules := fun _ => List.mem_reverse
  let slash : Lexeme.Sign := { pattern := "/", kind := .slash, literal := "/" }
  have sign : (Rule.fixed slash).lexeme? "// y".toList = some "/".toList := by decide +kernel
  have comment : first? "// y".toList = some (.comment, "// y".toList) := by decide +kernel
  obtain ⟨first, taken, found, further⟩ :=
    first_match_is_longest_match.1 "// y".toList (.fixed slash) "/".toList (by decide) sign
  rw [comment] at found
  cases found
  exact ⟨further (by decide), same,
    first_match_is_longest_match.2 rules.reverse same "x ??= 1..2 // y", by decide +kernel⟩

end ScriptReader
