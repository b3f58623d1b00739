/-! # Nameless terms and β-reduction

A nameless term keeps nothing of a term but its meaning: a bound occurrence is the number of binders between it
and its own, a free occurrence is its name, and labels and provenance are gone. Two terms differ only in the names
of bound variables exactly if their nameless readings are equal, so contraction can be said here once and for all.

`Beta` is one step of reduction, and `reducts` lists the results of all single steps, one for each redex in
pre-order. The laws of `shift` and `instantiate` at the end are what the reading of a substitution rests on, and
`instantiate_instantiate` is what confluence rests on. -/

namespace BetaStepper

inductive Nameless where
  | bound (index : Nat)
  | free (name : String)
  | lam (body : Nameless)
  | app (func arg : Nameless)
  | hole
deriving DecidableEq

namespace Nameless

/-- The term inside one more binder, which stands outside the innermost `cutoff` ones. -/
def shift (cutoff : Nat) : Nameless → Nameless
  | bound index => if index < cutoff then bound index else bound (index + 1)
  | free name => free name
  | lam body => lam (body.shift (cutoff + 1))
  | app func arg => app (func.shift cutoff) (arg.shift cutoff)
  | hole => hole

/-- The term with `arg` for the variable of the binder outside the innermost `depth` ones. That binder disappears,
so the indices beyond it come one closer. -/
def instantiate : Nameless → Nat → Nameless → Nameless
  | bound index, depth, arg =>
    if index < depth then bound index
    else if index = depth then arg
    else bound (index - 1)
  | free name, _, _ => free name
  | lam body, depth, arg => lam (body.instantiate (depth + 1) (arg.shift 0))
  | app func operand, depth, arg => app (func.instantiate depth arg) (operand.instantiate depth arg)
  | hole, _, _ => hole

/-! ## Reduction -/

/-- One step of β-reduction, anywhere in the term. -/
inductive Beta : Nameless → Nameless → Prop where
  | contract (body arg : Nameless) : Beta (app (lam body) arg) (body.instantiate 0 arg)
  | body {body reduct : Nameless} : Beta body reduct → Beta (lam body) (lam reduct)
  | func {func reduct : Nameless} (arg : Nameless) : Beta func reduct → Beta (app func arg) (app reduct arg)
  | arg (func : Nameless) {arg reduct : Nameless} : Beta arg reduct → Beta (app func arg) (app func reduct)

/-- The contractum of the term itself, if it is a redex. -/
def contractum? : Nameless → Option Nameless
  | app (lam body) arg => some (body.instantiate 0 arg)
  | _ => none

/-- The results of contracting one redex, for each redex in pre-order, function before argument. -/
def reducts : Nameless → List Nameless
  | bound _ => []
  | free _ => []
  | lam body => body.reducts.map lam
  | app func arg =>
    (app func arg).contractum?.toList ++ (func.reducts.map (app · arg) ++ arg.reducts.map (app func ·))
  | hole => []

theorem beta_of_contractum? {term reduct : Nameless} (contracts : term.contractum? = some reduct) :
    Beta term reduct := by
  unfold contractum? at contracts
  split at contracts
  · cases contracts
    exact .contract _ _
  · cases contracts

theorem beta_of_mem_reducts {term reduct : Nameless} (member : reduct ∈ term.reducts) : Beta term reduct := by
  induction term generalizing reduct with
  | bound | free | hole => cases member
  | lam body bodyHypothesis =>
    obtain ⟨inner, innerMember, rfl⟩ := List.mem_map.1 member
    exact .body (bodyHypothesis innerMember)
  | app func arg funcHypothesis argHypothesis =>
    rcases List.mem_append.1 member with here | inside
    · exact beta_of_contractum? (Option.mem_toList.1 here)
    · rcases List.mem_append.1 inside with inFunc | inArg
      · obtain ⟨inner, innerMember, rfl⟩ := List.mem_map.1 inFunc
        exact .func arg (funcHypothesis innerMember)
      · obtain ⟨inner, innerMember, rfl⟩ := List.mem_map.1 inArg
        exact .arg func (argHypothesis innerMember)

theorem mem_reducts_of_beta {term reduct : Nameless} (step : Beta term reduct) : reduct ∈ term.reducts := by
  induction step with
  | contract body arg => simp [reducts, contractum?]
  | body _ member => exact List.mem_map_of_mem member
  | func arg _ member =>
    exact List.mem_append_right _ (List.mem_append_left _ (List.mem_map_of_mem member))
  | arg func _ member =>
    exact List.mem_append_right _ (List.mem_append_right _ (List.mem_map_of_mem member))

/-- The reducts are exactly the terms that one step leads to. -/
theorem mem_reducts_iff {term reduct : Nameless} : reduct ∈ term.reducts ↔ Beta term reduct :=
  ⟨beta_of_mem_reducts, mem_reducts_of_beta⟩

/-! ## Laws of indices -/

theorem shift_shift {inner outer : Nat} (ordered : inner ≤ outer) (term : Nameless) :
    (term.shift outer).shift inner = (term.shift inner).shift (outer + 1) := by
  induction term generalizing inner outer with
  | bound index =>
    -- the index lies below both cutoffs, between them or above both
    by_cases low : index < inner
    · have : index < outer := by omega
      have : index < outer + 1 := by omega
      simp [shift, *]
    · by_cases middle : index < outer
      · simp [shift, low, middle]
      · have : ¬ index + 1 < inner := by omega
        simp [shift, *]
  | free | hole => rfl
  | lam body bodyHypothesis => simp only [shift, bodyHypothesis (Nat.succ_le_succ ordered)]
  | app func arg funcHypothesis argHypothesis =>
    simp only [shift, funcHypothesis ordered, argHypothesis ordered]

theorem shift_instantiate {cutoff depth : Nat} (ordered : cutoff ≤ depth) (arg term : Nameless) :
    (term.instantiate depth arg).shift cutoff =
      (term.shift cutoff).instantiate (depth + 1) (arg.shift cutoff) := by
  induction term generalizing cutoff depth arg with
  | bound index =>
    by_cases low : index < cutoff
    · have : index < depth := by omega
      have : index < depth + 1 := by omega
      simp [shift, instantiate, *]
    · by_cases middle : index < depth
      · simp [shift, instantiate, low, middle]
      · by_cases here : index = depth
        · subst here
          simp [shift, instantiate, low]
        · -- beyond the binder that disappears, the index stays positive
          have lowered : ¬ index - 1 < cutoff := by omega
          have raised : index - 1 + 1 = index := by omega
          simp [shift, instantiate, low, middle, here, lowered, raised]
  | free | hole => rfl
  | lam body bodyHypothesis =>
    simp only [shift, instantiate, bodyHypothesis (Nat.succ_le_succ ordered), shift_shift (Nat.zero_le cutoff)]
  | app func operand funcHypothesis operandHypothesis =>
    simp only [shift, instantiate, funcHypothesis ordered, operandHypothesis ordered]

/-- A term in which the binder does not occur is not changed when the binder disappears. -/
theorem instantiate_shift (depth : Nat) (arg term : Nameless) : (term.shift depth).instantiate depth arg = term := by
  induction term generalizing depth arg with
  | bound index =>
    by_cases low : index < depth
    · simp [shift, instantiate, low]
    · have above : ¬ index + 1 < depth := by omega
      have apart : index + 1 ≠ depth := by omega
      simp [shift, instantiate, low, above, apart]
  | free | hole => rfl
  | lam body bodyHypothesis => simp only [shift, instantiate, bodyHypothesis]
  | app func operand funcHypothesis operandHypothesis =>
    simp only [shift, instantiate, funcHypothesis, operandHypothesis]

/-- As `shift_instantiate`, for a new binder that stands further outside than the one that disappears. -/
theorem shift_instantiate_of_le {depth cutoff : Nat} (ordered : depth ≤ cutoff) (arg term : Nameless) :
    (term.instantiate depth arg).shift cutoff =
      (term.shift (cutoff + 1)).instantiate depth (arg.shift cutoff) := by
  induction term generalizing depth cutoff arg with
  | bound index =>
    by_cases low : index < depth
    · have : index < cutoff := by omega
      have : index < cutoff + 1 := by omega
      simp [shift, instantiate, *]
    · by_cases here : index = depth
      · subst here
        have : index < cutoff + 1 := by omega
        simp [shift, instantiate, *]
      · -- beyond the binder that disappears, both sides compare the same index with the cutoff
        by_cases middle : index < cutoff + 1
        · have lowered : index - 1 < cutoff := by omega
          simp [shift, instantiate, low, here, middle, lowered]
        · have lowered : ¬ index - 1 < cutoff := by omega
          have above : ¬ index + 1 < depth := by omega
          have apart : index + 1 ≠ depth := by omega
          have raised : index - 1 + 1 = index := by omega
          simp [shift, instantiate, low, here, middle, lowered, above, apart, raised]
  | free | hole => rfl
  | lam body bodyHypothesis =>
    simp only [shift, instantiate, bodyHypothesis (Nat.succ_le_succ ordered), shift_shift (Nat.zero_le cutoff)]
  | app func operand funcHypothesis operandHypothesis =>
    simp only [shift, instantiate, funcHypothesis ordered, operandHypothesis ordered]

/-- The substitution lemma: of two binders that disappear, the outer one may go first. -/
theorem instantiate_instantiate {inner outer : Nat} (ordered : inner ≤ outer) (arg other term : Nameless) :
    (term.instantiate inner arg).instantiate outer other =
      (term.instantiate (outer + 1) (other.shift inner)).instantiate inner (arg.instantiate outer other) := by
  induction term generalizing inner outer arg other with
  | bound index =>
    by_cases low : index < inner
    · have : index < outer := by omega
      have : index < outer + 1 := by omega
      simp [instantiate, *]
    · by_cases here : index = inner
      · subst here
        have : index < outer + 1 := by omega
        simp [instantiate, *]
      · by_cases middle : index < outer + 1
        · have lowered : index - 1 < outer := by omega
          simp [instantiate, low, here, middle, lowered]
        · by_cases outermost : index = outer + 1
          · -- the outer variable: its term is raised over the inner binder and lowered again
            subst outermost
            simp [instantiate, low, here, instantiate_shift]
          · have beyond : ¬ index - 1 < outer := by omega
            have apart : index - 1 ≠ outer := by omega
            have above : ¬ index - 1 < inner := by omega
            have away : index - 1 ≠ inner := by omega
            simp [instantiate, low, here, middle, outermost, beyond, apart, above, away]
  | free | hole => rfl
  | lam body bodyHypothesis =>
    simp only [instantiate, bodyHypothesis (Nat.succ_le_succ ordered), shift_shift (Nat.zero_le inner),
      shift_instantiate (Nat.zero_le outer)]
  | app func operand funcHypothesis operandHypothesis =>
    simp only [instantiate, funcHypothesis ordered, operandHypothesis ordered]

end Nameless

end BetaStepper
