/- # ScriptReader.Proofs.Operands — operands, operators, and what may still follow

The reader goes on from an operand again and again, and what it may still meet
depends on what it has read so far. `Stands` tells three cases apart. A chain can
go on with anything; operands with signs or operators can go on with operators
only, because whatever binds tighter has been read; and a creation has read
everything that could follow it. `Stands.sign` and `Stands.join` say how one step
of the reader keeps that.
-/
import ScriptReader.Proofs.Assembling
import ScriptReader.Proofs.Grammar

namespace ScriptReader

set_option autoImplicit false

/-! ## Sequences of operands -/

section Sequences

variable {operators operators' : List TokenKind} {ahead middle left rest : List Token}
  {operator : Token}

theorem legible_of_joining {token : Token} (joining : token.kind ∈ TokenKind.joining) :
    token.Legible := by
  intro number
  rw [number] at joining
  exact absurd joining (by decide)

theorem covers_operands : Covers (.operands operators) ahead left ↔
    ∃ middle, Covers (.part .operand) ahead middle ∧
      Relation.ReflTransGen (Covers (.inOrder [.token operators, .part .operand])) middle left := by
  simp only [Pattern.operands, Pattern.inOrder, covers_both, covers_many]

theorem covers_upToCreation : Covers (.upToCreation operators) ahead left ↔
    ∃ middle,
      Relation.ReflTransGen (Covers (.inOrder [.part .operand, .token operators])) ahead middle ∧
      Covers (.part .creation) middle left := by
  simp only [Pattern.upToCreation, Pattern.inOrder, covers_both, covers_many]

theorem covers_operands_of_operand (operand : Covers (.part .operand) ahead left) :
    Covers (.operands operators) ahead left :=
  covers_operands.mpr ⟨left, operand, .refl⟩

theorem covers_upToCreation_of_creation (creation : Covers (.part .creation) ahead left) :
    Covers (.upToCreation operators) ahead left :=
  covers_upToCreation.mpr ⟨ahead, .refl, creation⟩

theorem covers_token_of_subset (more : operators ⊆ operators')
    (covers : Covers (.token operators) ahead left) : Covers (.token operators') ahead left := by
  obtain ⟨token, same, member, legible⟩ := covers_token.mp covers
  exact covers_token.mpr ⟨token, same, more member, legible⟩

theorem covers_operands_of_subset (more : operators ⊆ operators')
    (covers : Covers (.operands operators) ahead left) : Covers (.operands operators') ahead left := by
  obtain ⟨middle, first, others⟩ := covers_operands.mp covers
  refine covers_operands.mpr ⟨middle, first, Relation.ReflTransGen.mono ?_ _ _ others⟩
  intro _ _ step
  obtain ⟨behind, joined, operand⟩ := covers_both.mp step
  exact covers_both.mpr ⟨behind, covers_token_of_subset more joined, operand⟩

theorem covers_upToCreation_of_subset (more : operators ⊆ operators')
    (covers : Covers (.upToCreation operators) ahead left) :
    Covers (.upToCreation operators') ahead left := by
  obtain ⟨middle, others, last⟩ := covers_upToCreation.mp covers
  refine covers_upToCreation.mpr ⟨middle, Relation.ReflTransGen.mono ?_ _ _ others, last⟩
  intro _ _ step
  obtain ⟨behind, operand, joined⟩ := covers_both.mp step
  exact covers_both.mpr ⟨behind, operand, covers_token_of_subset more joined⟩

theorem covers_operands_of_nil (covers : Covers (.operands []) ahead left) :
    Covers (.part .operand) ahead left := by
  obtain ⟨middle, first, others⟩ := covers_operands.mp covers
  cases others using Relation.ReflTransGen.head_induction_on with
  | refl => exact first
  | head step _ => simp [Pattern.inOrder] at step

theorem covers_upToCreation_of_nil (covers : Covers (.upToCreation []) ahead left) :
    Covers (.part .creation) ahead left := by
  obtain ⟨middle, others, last⟩ := covers_upToCreation.mp covers
  cases others using Relation.ReflTransGen.head_induction_on with
  | refl => exact last
  | head step _ => simp [Pattern.inOrder] at step

/-- Operands, an operator, and operands again. -/
theorem covers_operands_join (before : Covers (.operands operators) ahead (operator :: rest))
    (joined : Covers (.token operators) (operator :: rest) rest)
    (behind : Covers (.operands operators) rest left) : Covers (.operands operators) ahead left := by
  obtain ⟨middle, first, others⟩ := covers_operands.mp before
  obtain ⟨middle', first', others'⟩ := covers_operands.mp behind
  refine covers_operands.mpr ⟨middle, first, others.trans (.head ?_ others')⟩
  exact covers_both.mpr ⟨rest, joined, first'⟩

/-- Operands, an operator, and a sequence that ends in a creation. -/
theorem covers_upToCreation_join (before : Covers (.operands operators) ahead (operator :: rest))
    (joined : Covers (.token operators) (operator :: rest) rest)
    (behind : Covers (.upToCreation operators) rest left) :
    Covers (.upToCreation operators) ahead left := by
  obtain ⟨middle, first, others⟩ := covers_operands.mp before
  obtain ⟨middle', others', last⟩ := covers_upToCreation.mp behind
  -- The same tokens, paired as operator and operand on one side, as operand and operator here.
  have paired : Relation.ReflTransGen (Covers (.inOrder [.part .operand, .token operators]))
      ahead rest := by
    clear before behind others' last
    induction others using Relation.ReflTransGen.head_induction_on generalizing ahead with
    | refl => exact .single (covers_both.mpr ⟨_, first, joined⟩)
    | head step _ ih =>
        obtain ⟨between, operator', operand⟩ := covers_both.mp step
        exact .head (covers_both.mpr ⟨_, first, operator'⟩) (ih operand)
  exact covers_upToCreation.mpr ⟨middle', paired.trans others', last⟩

end Sequences

/-! ## Operators above a power -/

/-- The kinds that join operands and bind tighter than the power. -/
def joiningAbove (least : Power) : List TokenKind :=
  TokenKind.joining.filter fun kind => least < Tables.language.power kind

theorem mem_joiningAbove {least : Power} {kind : TokenKind} :
    kind ∈ joiningAbove least ↔ kind ∈ TokenKind.joining ∧ least < Tables.language.power kind := by
  simp [joiningAbove]

theorem joiningAbove_lowest : joiningAbove .lowest = TokenKind.joining := by decide

theorem joiningAbove_assignment : joiningAbove .assignment = .dotDot :: TokenKind.combining := by
  decide

theorem joiningAbove_unary : joiningAbove .unary = [] := by decide

theorem joiningAbove_subset {least least' : Power} (le : least ≤ least') :
    joiningAbove least' ⊆ joiningAbove least := by
  intro kind member
  obtain ⟨joining, tighter⟩ := mem_joiningAbove.mp member
  refine mem_joiningAbove.mpr ⟨joining, ?_⟩
  rw [Power.lt_iff_rank] at tighter ⊢
  rw [Power.le_iff_rank] at le
  omega

/-! ## What has been read of an expression -/

def Expr.isCall : Expr → Bool
  | .call _ _ => true
  | _ => false

/-- What has been read from the start on, under a power, and stands for the value. -/
inductive Stands (least : Power) (start : List Token) (value : Expr) (ahead : List Token) : Prop
  | chain (covers : Covers (.part .chain) start ahead)
      (call : value.isCall → Covers (.part .call) start ahead)
  | operands (covers : Covers (.operands (joiningAbove least)) start ahead)
      (other : ¬ value.isCall) (stops : Stops .unary ahead)
  | upToCreation (covers : Covers (.upToCreation (joiningAbove least)) start ahead)
      (other : ¬ value.isCall) (stops : Stops .lowest ahead)

section Steps

variable {least : Power} {start ahead left rest : List Token} {value right : Expr}
  {operator : Token}

theorem covers_operand_of_chain (chain : Covers (.part .chain) ahead left) :
    Covers (.part .operand) ahead left := by
  rw [covers_part]
  simp only [Category.rule, Pattern.inOrder, covers_both, covers_many]
  exact ⟨ahead, .refl, chain⟩

theorem covers_chain_of_primary (primary : Covers (.part .primary) ahead left) :
    Covers (.part .chain) ahead left := by
  rw [covers_part]
  simp only [Category.rule, Pattern.inOrder, covers_both, covers_many]
  exact ⟨left, primary, .refl⟩

theorem covers_chain_snoc (chain : Covers (.part .chain) start ahead)
    (goesOn : Covers (.part .continuation) ahead left) : Covers (.part .chain) start left := by
  rw [covers_part] at chain ⊢
  simp only [Category.rule, Pattern.inOrder, covers_both, covers_many] at chain ⊢
  obtain ⟨middle, primary, others⟩ := chain
  exact ⟨middle, primary, others.tail goesOn⟩

theorem Stands.covers_expression (stands : Stands least ahead value left) :
    Covers (.part (.expression (joiningAbove least))) ahead left := by
  cases stands with
  | chain covers _ =>
      have operand := covers_operand_of_chain covers
      exact covers_form 0 rfl rfl (covers_operands_of_operand operand)
  | operands covers _ _ => exact covers_form 0 rfl rfl covers
  | upToCreation covers _ _ => exact covers_form 1 rfl rfl covers

/-- A sign in front of an operand. Signs can pile up, and they end in a chain or a creation. -/
theorem Stands.sign (sign : operator.kind ∈ TokenKind.signs)
    (stands : Stands .unary rest right left) (stops : Stops .unary left) (other : ¬ value.isCall) :
    Stands least (operator :: rest) value left := by
  have signed : Covers (.token TokenKind.signs) (operator :: rest) rest := by
    refine covers_token.mpr ⟨operator, rfl, sign, fun number => ?_⟩
    rw [number] at sign
    exact absurd sign (by decide)
  have onOperand : Covers (.part .operand) rest left →
      Covers (.part .operand) (operator :: rest) left := by
    intro operand
    rw [covers_part] at operand ⊢
    simp only [Category.rule, Pattern.inOrder, covers_both, covers_many] at operand ⊢
    obtain ⟨middle, others, chain⟩ := operand
    exact ⟨middle, .head signed others, chain⟩
  have onCreation : Covers (.part .creation) rest left →
      Covers (.part .creation) (operator :: rest) left := by
    intro creation
    rw [covers_part] at creation ⊢
    simp only [Category.rule, Pattern.inOrder, covers_both, covers_many] at creation ⊢
    obtain ⟨middle, others, created⟩ := creation
    exact ⟨middle, .head signed others, created⟩
  cases stands with
  | chain covers _ =>
      have operand := onOperand (covers_operand_of_chain covers)
      exact .operands (covers_operands_of_operand operand) other stops
  | operands covers _ _ =>
      rw [joiningAbove_unary] at covers
      have operand := onOperand (covers_operands_of_nil covers)
      exact .operands (covers_operands_of_operand operand) other stops
  | upToCreation covers _ ends =>
      rw [joiningAbove_unary] at covers
      have creation := onCreation (covers_upToCreation_of_nil covers)
      exact .upToCreation (covers_upToCreation_of_creation creation) other ends

/-- An operator behind operands, and its right operand. -/
theorem Stands.join {rule : InfixRule}
    (before : Covers (.operands (joiningAbove least)) start (operator :: rest))
    (joining : operator.kind ∈ TokenKind.joining)
    (tighter : least < Tables.language.power operator.kind)
    (stands : Stands (rule.rightPower (Tables.language.power operator.kind)) rest right left)
    (stops : Stops (rule.rightPower (Tables.language.power operator.kind)) left)
    (other : ¬ value.isCall) : Stands least start value left := by
  obtain ⟨above, below⟩ := le_rightPower tighter rule
  have joined : Covers (.token (joiningAbove least)) (operator :: rest) rest :=
    covers_token.mpr
      ⟨operator, rfl, mem_joiningAbove.mpr ⟨joining, tighter⟩, legible_of_joining joining⟩
  have ends : Stops .unary left := by
    refine stops.mono ?_
    have looser := (Tables.language_power_of_joining joining).2
    rw [Power.lt_iff_rank] at looser
    rw [Power.le_iff_rank] at below ⊢
    omega
  cases stands with
  | chain covers _ =>
      have operand := covers_operand_of_chain covers
      exact .operands (covers_operands_join before joined (covers_operands_of_operand operand))
        other ends
  | operands covers _ _ =>
      have operands := covers_operands_of_subset (joiningAbove_subset above) covers
      exact .operands (covers_operands_join before joined operands) other ends
  | upToCreation covers _ last =>
      have created := covers_upToCreation_of_subset (joiningAbove_subset above) covers
      exact .upToCreation (covers_upToCreation_join before joined created) other last

end Steps

end ScriptReader
