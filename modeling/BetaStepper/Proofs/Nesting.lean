import BetaStepper.Handler.Nested

/-! # One report for each error

A signal that is raised inside nested handlers meets the innermost one first, and whatever comes out of a handler is
settled: nothing, an exit, or a defect that is marked as reported. The other handlers print and count nothing for such
a signal, and all that they can do is to turn a defect into an exit. The step that carries the argument is
`leave_of_settled`; `passOut_concat` takes it through any number of handlers. -/

namespace BetaStepper

namespace Signal

/-- What a handler reports for a signal that goes no further. -/
def diagnostic? : Signal → Option Diagnostic
  | diagnostic made => some made
  | tooDeep => some Handler.tooDeep
  | interrupt => some Handler.interrupted
  | exit _ => none
  | defect _ _ => none

/-- No handler has reported the signal yet. -/
def isFresh : Signal → Bool
  | defect _ reported => !reported
  | _ => true

/-- Nothing is left to report: the work is done, or an exit or a reported defect is on its way out. -/
inductive Settled : Option Signal → Prop where
  | done : Settled none
  | exit (code : ExitCode) : Settled (some (.exit code))
  | defect (cause : Defect) : Settled (some (.defect cause true))

/-- What handlers make of a settled signal, given whether any of them is fatal. -/
def escalate (fatal : Bool) : Option Signal → Option Signal
  | some (.defect cause reported) => if fatal then some (.exit (.status 1)) else some (.defect cause reported)
  | signal => signal

theorem escalate_false (signal : Option Signal) : escalate false signal = signal := by
  rcases signal with _ | _ | _ | _ | _ | _ <;> rfl

theorem escalate_escalate (outer inner : Bool) (signal : Option Signal) :
    escalate outer (escalate inner signal) = escalate (outer || inner) signal := by
  cases inner with
  | false => rw [escalate_false, Bool.or_false]
  | true =>
    -- an exit is as far as a signal can be escalated
    rw [Bool.or_true]
    rcases signal with _ | _ | _ | _ | _ | _ <;> rfl

theorem Settled.escalate {signal : Option Signal} (settled : Settled signal) (fatal : Bool) :
    Settled (escalate fatal signal) := by
  cases settled with
  | done => exact .done
  | exit code => exact .exit code
  | defect cause =>
    cases fatal with
    | true => exact .exit (.status 1)
    | false => exact .defect cause

end Signal

namespace Handler

open Signal (Settled escalate escalate_false escalate_escalate)

/-! ## One handler -/

theorem leave_of_diagnostic? {signal : Signal} {diagnostic : Diagnostic}
    (found : signal.diagnostic? = some diagnostic) (handler : Handler) :
    handler.leave (some signal) = handler.throw diagnostic := by
  cases signal with
  | diagnostic | tooDeep | interrupt =>
    cases found
    rfl
  | exit | defect => cases found

/-- Whatever a handler meets, what it leaves behind is settled. -/
theorem settled_leave (handler : Handler) (signal : Option Signal) : Settled (handler.leave signal).signal := by
  have thrown (diagnostic : Diagnostic) : Settled (handler.throw diagnostic).signal := by
    rw [throw]
    split
    · exact .exit (.status 1)
    · exact .done
  cases signal with
  | none => exact .done
  | some signal =>
    cases signal with
    | diagnostic | tooDeep | interrupt => exact thrown _
    | exit code => exact .exit code
    | defect cause reported =>
      cases reported with
      | true => exact (Settled.defect cause).escalate handler.fatal
      | false =>
        have marked := (Settled.defect cause).escalate handler.fatal
        rw [leave, throw]
        cases fatal : handler.fatal <;> simpa [fatal, escalate] using marked

theorem leave_of_settled {signal : Option Signal} (settled : Settled signal) (handler : Handler) :
    handler.leave signal = { handler, signal := escalate handler.fatal signal } := by
  cases settled <;> rfl

/-! ## Any number of handlers -/

/-- Raising is no work for a handler, so all that happens is that the signal passes out. -/
theorem nest_raise (trouble : Trouble) (handlers : List Handler) :
    nest (.raise trouble) handlers = passOut (some trouble.signal) handlers := by
  rcases List.eq_nil_or_concat handlers with rfl | ⟨outer, innermost, rfl⟩
  · rfl
  · simp [nest, perform, Styled.render]

/-- Only the innermost handler counts and prints. The others pass on what it leaves behind. -/
theorem passOut_concat (signal : Option Signal) (outer : List Handler) (innermost : Handler) :
    passOut signal (outer ++ [innermost]) =
      { handlers := outer ++ [(innermost.leave signal).handler]
        out := (innermost.leave signal).out.render innermost.color
        signal := escalate (outer.any (·.fatal)) (innermost.leave signal).signal } := by
  induction outer with
  | nil => simp [passOut, escalate_false]
  | cons handler outer outerHypothesis =>
    have settled := (innermost.settled_leave signal).escalate (outer.any (·.fatal))
    rw [List.cons_append, passOut, outerHypothesis]
    simp only [leave_of_settled settled, escalate_escalate]
    simp [Styled.render]

/-! ## Reports -/

/-- The innermost handler counts the error and prints the diagnostic, and the others do neither. -/
structure ReportedOnce (diagnostic : Diagnostic) (outer : List Handler) (innermost : Handler) (outcome : Outcome) :
    Prop where
  counted : outcome.handlers = outer ++ [{ innermost with errors := innermost.errors + 1 }]
  printed : outcome.out = (diagnostic.report .error).render innermost.color

/-- An exit passes all handlers and none reports it. Any other fresh signal is reported by the innermost handler alone.
A diagnostic, a term that is too deep and an interrupt end there, in an exit if that handler is fatal. A defect goes on
until it meets a fatal handler, and comes out as it was if there is none. -/
theorem error_is_reported_once {signal : Signal} (fresh : signal.isFresh = true) (outer : List Handler)
    (innermost : Handler) :
    let handlers := outer ++ [innermost]
    let outcome := passOut (some signal) handlers
    (∀ trouble : Trouble, trouble.signal = signal → nest (.raise trouble) handlers = outcome) ∧
    (∀ code, signal = .exit code → outcome = { handlers, signal := some (.exit code) }) ∧
    (∀ diagnostic, signal.diagnostic? = some diagnostic →
      ReportedOnce diagnostic outer innermost outcome ∧
        outcome.signal = if innermost.fatal then some (.exit (.status 1)) else none) ∧
    (∀ cause reported, signal = .defect cause reported →
      ReportedOnce (unknown cause) outer innermost outcome ∧
        outcome.signal =
          if handlers.any (·.fatal) then some (.exit (.status 1)) else some (.defect cause true)) := by
  intro handlers outcome
  have passed : outcome = _ := passOut_concat (some signal) outer innermost
  refine ⟨?_, ?_, ?_, ?_⟩
  · rintro trouble rfl
    exact nest_raise trouble handlers
  · rintro code rfl
    rw [passed]
    rfl
  · intro diagnostic found
    rw [passed, leave_of_diagnostic? found]
    refine ⟨⟨rfl, rfl⟩, ?_⟩
    cases fatal : innermost.fatal <;> simp [throw, fatal, escalate]
  · rintro cause reported rfl
    cases reported with
    | true => cases fresh
    | false =>
      rw [passed]
      refine ⟨⟨rfl, rfl⟩, ?_⟩
      simp only [handlers, List.any_append]
      cases fatal : innermost.fatal <;> simp [leave, throw, fatal, escalate]

theorem defect_is_reported_by_innermost :
    let cause : Defect := ⟨"ValueError", "{}"⟩
    let handlers : List Handler :=
      [{ fatal := true }, { fatal := false, errors := 2 }, { fatal := false, color := false }]
    let outcome := nest (.raise (.defect cause)) handlers
    outcome.handlers.map (·.errors) = [0, 2, 1] ∧ outcome.signal = some (.exit (.status 1)) ∧
      outcome.out = ((unknown cause).report .error).render false := by
  intro cause handlers outcome
  have fresh : (Signal.defect cause false).isFresh = true := rfl
  obtain ⟨raised, -, -, reports⟩ := error_is_reported_once fresh
    [{ fatal := true }, { fatal := false, errors := 2 }] { fatal := false, color := false }
  obtain ⟨once, escalated⟩ := reports cause false rfl
  have same : outcome = _ := raised (.defect cause) rfl
  rw [same]
  exact ⟨by rw [once.counted]; rfl, escalated, once.printed⟩

end Handler

end BetaStepper
