import BetaStepper.Proofs.Nameless
import Mathlib.Logic.Relation

/-! # Confluence of β-reduction

Two reductions of a nameless term can always be continued to a common one. A single step may copy the redex that
another step contracts, so steps are compared through `Parallel`, which contracts any of the redexes that a term has at
once. All of them contracted is `develop`, and the step that carries the argument is `Parallel.develop`: whatever a
parallel step has left of the redexes, one more parallel step contracts. -/

namespace BetaStepper.Nameless

open Relation (ReflTransGen)

/-- Contracts any of the redexes of a term at once, each with its parts reduced in the same way. -/
inductive Parallel : Nameless → Nameless → Prop where
  | bound (index : Nat) : Parallel (bound index) (bound index)
  | free (name : String) : Parallel (free name) (free name)
  | lam {body reduct : Nameless} : Parallel body reduct → Parallel (lam body) (lam reduct)
  | app {func newFunc arg newArg : Nameless} :
      Parallel func newFunc → Parallel arg newArg → Parallel (app func arg) (app newFunc newArg)
  | contract {body newBody arg newArg : Nameless} :
      Parallel body newBody → Parallel arg newArg → Parallel (app (lam body) arg) (newBody.instantiate 0 newArg)
  | hole : Parallel hole hole

namespace Parallel

theorem refl (term : Nameless) : Parallel term term := by
  induction term with
  | bound index => exact .bound index
  | free name => exact .free name
  | lam _ bodyHypothesis => exact .lam bodyHypothesis
  | app _ _ funcHypothesis argHypothesis => exact .app funcHypothesis argHypothesis
  | hole => exact .hole

theorem of_beta {term reduct : Nameless} (step : Beta term reduct) : Parallel term reduct := by
  induction step with
  | contract body arg => exact .contract (refl body) (refl arg)
  | body _ bodyHypothesis => exact .lam bodyHypothesis
  | func arg _ funcHypothesis => exact .app funcHypothesis (refl arg)
  | arg func _ argHypothesis => exact .app (refl func) argHypothesis

/-! ## Parallel steps under instantiation -/

theorem shift {term reduct : Nameless} (step : Parallel term reduct) (cutoff : Nat) :
    Parallel (term.shift cutoff) (reduct.shift cutoff) := by
  induction step generalizing cutoff with
  | bound | free | hole => exact refl _
  | lam _ bodyHypothesis => exact .lam (bodyHypothesis (cutoff + 1))
  | app _ _ funcHypothesis argHypothesis => exact .app (funcHypothesis cutoff) (argHypothesis cutoff)
  | contract _ _ bodyHypothesis argHypothesis =>
    rw [shift_instantiate_of_le (Nat.zero_le cutoff)]
    exact .contract (bodyHypothesis (cutoff + 1)) (argHypothesis cutoff)

theorem instantiate {term reduct arg newArg : Nameless} (step : Parallel term reduct) (argStep : Parallel arg newArg)
    (depth : Nat) : Parallel (term.instantiate depth arg) (reduct.instantiate depth newArg) := by
  induction step generalizing depth arg newArg with
  | bound index =>
    simp only [Nameless.instantiate]
    split
    · exact .bound index
    · split
      · exact argStep
      · exact .bound (index - 1)
  | free name => exact .free name
  | lam _ bodyHypothesis => exact .lam (bodyHypothesis (argStep.shift 0) (depth + 1))
  | app _ _ funcHypothesis operandHypothesis =>
    exact .app (funcHypothesis argStep depth) (operandHypothesis argStep depth)
  | contract _ _ bodyHypothesis operandHypothesis =>
    rw [instantiate_instantiate (Nat.zero_le depth)]
    exact .contract (bodyHypothesis (argStep.shift 0) (depth + 1)) (operandHypothesis argStep depth)
  | hole => exact .hole

end Parallel

/-! ## Contracting all redexes -/

/-- The term with all of its redexes contracted at once. -/
def develop : Nameless → Nameless
  | bound index => bound index
  | free name => free name
  | lam body => lam body.develop
  | app (lam body) arg => body.develop.instantiate 0 arg.develop
  | app func arg => app func.develop arg.develop
  | hole => hole

/-- One more parallel step contracts all redexes that a parallel step has left. -/
theorem Parallel.develop {term reduct : Nameless} (step : Parallel term reduct) : Parallel reduct term.develop := by
  induction step with
  | bound index => exact .bound index
  | free name => exact .free name
  | lam _ bodyHypothesis => exact .lam bodyHypothesis
  | @app func newFunc arg newArg funcStep _ funcHypothesis argHypothesis =>
    -- a redex whose abstraction was reduced but not applied is a redex still
    cases funcStep with
    | lam _ =>
      cases funcHypothesis with
      | lam bodyDeveloped => exact .contract bodyDeveloped argHypothesis
    | bound | free | app | contract | hole => exact .app funcHypothesis argHypothesis
  | contract _ _ bodyHypothesis argHypothesis => exact bodyHypothesis.instantiate argHypothesis 0
  | hole => exact .hole

/-! ## Single steps -/

theorem beta_lam {body reduct : Nameless} (steps : ReflTransGen Beta body reduct) :
    ReflTransGen Beta (lam body) (lam reduct) :=
  steps.lift lam fun _ _ => .body

theorem beta_app {func newFunc arg newArg : Nameless} (funcSteps : ReflTransGen Beta func newFunc)
    (argSteps : ReflTransGen Beta arg newArg) : ReflTransGen Beta (app func arg) (app newFunc newArg) := by
  have inFunc : ReflTransGen Beta (app func arg) (app newFunc arg) := funcSteps.lift (app · arg) fun _ _ => .func arg
  have inArg : ReflTransGen Beta (app newFunc arg) (app newFunc newArg) :=
    argSteps.lift (app newFunc) fun _ _ => .arg newFunc
  exact inFunc.trans inArg

theorem Parallel.beta {term reduct : Nameless} (step : Parallel term reduct) : ReflTransGen Beta term reduct := by
  induction step with
  | bound | free | hole => exact .refl
  | lam _ bodyHypothesis => exact beta_lam bodyHypothesis
  | app _ _ funcHypothesis argHypothesis => exact beta_app funcHypothesis argHypothesis
  | @contract body newBody arg newArg _ _ bodyHypothesis argHypothesis =>
    have reduced := beta_app (beta_lam bodyHypothesis) argHypothesis
    exact reduced.tail (.contract newBody newArg)

/-- Reductions that part can be brought together again. -/
theorem beta_confluent {term first second : Nameless} (firstSteps : ReflTransGen Beta term first)
    (secondSteps : ReflTransGen Beta term second) :
    ∃ last, ReflTransGen Beta first last ∧ ReflTransGen Beta second last := by
  have parallel {start stop : Nameless} (steps : ReflTransGen Beta start stop) : ReflTransGen Parallel start stop :=
    ReflTransGen.mono (fun _ _ => Parallel.of_beta) start stop steps
  have single {start stop : Nameless} (steps : ReflTransGen Parallel start stop) : ReflTransGen Beta start stop :=
    Relation.reflTransGen_closed (fun _ _ => Parallel.beta) start stop steps
  have diamond (start left right : Nameless) (leftStep : Parallel start left) (rightStep : Parallel start right) :
      ∃ last, Relation.ReflGen Parallel left last ∧ ReflTransGen Parallel right last :=
    ⟨start.develop, .single leftStep.develop, .single rightStep.develop⟩
  obtain ⟨last, firstLast, secondLast⟩ := Relation.church_rosser diamond (parallel firstSteps) (parallel secondSteps)
  exact ⟨last, single firstLast, single secondLast⟩

end BetaStepper.Nameless
