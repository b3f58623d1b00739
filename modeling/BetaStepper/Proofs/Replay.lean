import BetaStepper.Proofs.Limits
import BetaStepper.Proofs.Parsing
import BetaStepper.Session
import Mathlib.Data.List.Chain

/-! # Sessions can be replayed

Whatever is done to a session, it stands where loading its source and reducing by the recorded labels leads: undoing
takes the last label away and a refused operation changes nothing. What a history looks like is then a matter of
`replay` alone, by induction on the labels from the last one. -/

namespace BetaStepper.Session

inductive Operation where
  | load (text : String)
  | reduce (label : Int)
  | undo
  | reset

/-- The session after an operation, which is the same session if the operation is refused. -/
def perform (session : Session) : Operation → Session
  | .load text => (session.load text).toOption.getD session
  | .reduce label => (session.reduce label).toOption.getD session
  | .undo => session.undo.getD session
  | .reset => session.reset

def performAll (operations : List Operation) : Session := operations.foldl perform {}

/-- Loads a text into a new session and reduces by the labels in turn. -/
def replay (text : String) (labels : List Int) : Except Refusal Session := do
  let session ← load {} text
  labels.foldlM reduce session

/-- What a step says about the one before it. -/
def Follows (before after : Step) : Prop :=
  ∃ label, after.reduced = some label ∧ 1 ≤ label ∧ label ≤ before.term.redexCount ∧
    after.term = before.term.step (some label) ∧ after.term.number = after.term

/-! ## Accepted operations -/

theorem load_eq_ok {session next : Session} {text : String} :
    session.load text = .ok next ↔
      ∃ term numbered, Term.parse text = .ok term ∧ Guarded.number term = .ok numbered ∧
        next = { source := some (Text.strip text), history := [{ term := numbered }] } := by
  rw [load]
  cases parsed : Term.parse text with
  | error error => simp
  | ok term =>
    cases numbers : Guarded.number term with
    | error fault => simp [numbers]
    | ok numbered =>
      simp only [numbers, Except.ok.injEq]
      constructor
      · rintro rfl
        exact ⟨term, numbered, rfl, numbers, rfl⟩
      · rintro ⟨_, other, rfl, sameNumbers, rfl⟩
        rw [numbers] at sameNumbers
        cases sameNumbers
        rfl

theorem reduce_eq_ok {session next : Session} {label : Int} (accepted : session.reduce label = .ok next) :
    ∃ last term, session.history.getLast? = some last ∧ 1 ≤ label ∧ label ≤ last.term.redexCount ∧
      Guarded.step last.term (some label) = .ok term ∧
      next = { session with history := session.history ++ [{ term, reduced := some label }] } := by
  rw [reduce] at accepted
  cases found : session.history.getLast? with
  | none => simp [current, found] at accepted
  | some last =>
    simp only [current, redexCount, found, Option.map_some] at accepted
    split at accepted
    · cases accepted
    split at accepted
    · next inRange =>
      cases stepped : Guarded.step last.term (some label) with
      | error fault => simp [stepped] at accepted
      | ok term =>
        simp only [stepped] at accepted
        cases accepted
        exact ⟨last, term, rfl, inRange.1, inRange.2, stepped, rfl⟩
    · cases accepted

/-- The blanks that are cut from the source make no difference. -/
theorem load_strip {session next : Session} {text : String} (accepted : session.load text = .ok next) :
    load {} (Text.strip text) = .ok next := by
  obtain ⟨term, numbered, parsed, numbers, rfl⟩ := load_eq_ok.1 accepted
  exact load_eq_ok.2 ⟨term, numbered, Term.parse_strip_eq_ok.2 parsed, numbers, by rw [Text.strip_strip]⟩

theorem undo_of_reduce {session next : Session} {label : Int} (accepted : session.reduce label = .ok next) :
    next.undo = some session := by
  obtain ⟨last, term, found, _, _, _, rfl⟩ := reduce_eq_ok accepted
  have nonempty : session.history ≠ [] := by
    intro empty
    rw [empty] at found
    cases found
  rw [undo, if_neg (by simp [nonempty]), List.dropLast_concat]

/-! ## Replays -/

theorem replay_nil (text : String) : replay text [] = load {} text := by
  rw [replay]
  cases load {} text <;> rfl

theorem replay_concat {text : String} {labels : List Int} {label : Int} {next : Session} :
    replay text (labels ++ [label]) = .ok next ↔
      ∃ session, replay text labels = .ok session ∧ session.reduce label = .ok next := by
  have folded : replay text (labels ++ [label]) = replay text labels >>= (·.reduce label) := by
    simp [replay]
  rw [folded, bind_eq_ok]

/-- Taking the last step back is replaying without the last label. -/
theorem replay_of_undo {text : String} {labels : List Int} {session next : Session}
    (replayed : replay text labels = .ok session) (undone : session.undo = some next) :
    ∃ shorter, replay text shorter = .ok next := by
  rcases List.eq_nil_or_concat labels with rfl | ⟨shorter, label, rfl⟩
  · rw [replay_nil] at replayed
    obtain ⟨_, _, _, _, rfl⟩ := load_eq_ok.1 replayed
    cases undone
  · rw [List.concat_eq_append, replay_concat] at replayed
    obtain ⟨before, replayedBefore, accepted⟩ := replayed
    rw [undo_of_reduce accepted] at undone
    cases undone
    exact ⟨shorter, replayedBefore⟩

theorem follows_of_step {before : Step} {term : Term} {label : Int} (low : 1 ≤ label)
    (high : label ≤ before.term.redexCount) (stepped : Guarded.step before.term (some label) = .ok term) :
    Follows before { term, reduced := some label } := by
  obtain ⟨rfl, -, -⟩ := Guarded.step_eq_ok stepped
  exact ⟨label, rfl, low, high, rfl, Term.number_step before.term (some label)⟩

theorem history_of_replay {text : String} {labels : List Int} {session : Session}
    (replayed : replay text labels = .ok session) :
    session.source = some (Text.strip text) ∧ ∃ term rest, Term.parse text = .ok term ∧
      session.history = { term := term.number } :: rest ∧ rest.map (·.reduced) = labels.map some ∧
      session.history.IsChain Follows := by
  induction labels using List.reverseRecOn generalizing session with
  | nil =>
    rw [replay_nil] at replayed
    obtain ⟨term, numbered, parsed, numbers, rfl⟩ := load_eq_ok.1 replayed
    obtain ⟨-, rfl⟩ := Guarded.number_eq_ok.1 numbers
    exact ⟨rfl, term, [], parsed, rfl, rfl, .singleton _⟩
  | append_singleton labels label labelsHypothesis =>
    obtain ⟨before, replayedBefore, accepted⟩ := replay_concat.1 replayed
    obtain ⟨sameSource, term, rest, parsed, started, recorded, chained⟩ := labelsHypothesis replayedBefore
    obtain ⟨last, next, found, low, high, stepped, rfl⟩ := reduce_eq_ok accepted
    refine ⟨sameSource, term, rest ++ [{ term := next, reduced := some label }], parsed, ?_, ?_, ?_⟩
    · rw [started, List.cons_append]
    · rw [List.map_append, recorded, List.map_append]
      rfl
    · -- the only new pair is the step that was current and the one just recorded
      apply chained.append (.singleton _)
      intro other isLast after isAfter
      rw [found] at isLast
      cases isLast
      cases isAfter
      exact follows_of_step low high stepped

/-! ## Reachable sessions -/

/-- The invariant: nothing is loaded, or the session is a replay of a text without blanks at its ends. -/
def Replayable (session : Session) : Prop :=
  session = {} ∨ ∃ source labels, Text.strip source = source ∧ replay source labels = .ok session

theorem Replayable.perform {session : Session} (replayable : session.Replayable) (operation : Operation) :
    (session.perform operation).Replayable := by
  cases operation with
  | load text =>
    rw [Session.perform]
    cases accepted : session.load text with
    | error refusal => exact replayable
    | ok next =>
      have replayed : replay (Text.strip text) [] = .ok next := by rw [replay_nil, load_strip accepted]
      exact .inr ⟨Text.strip text, [], Text.strip_strip text, replayed⟩
  | reduce label =>
    rw [Session.perform]
    cases accepted : session.reduce label with
    | error refusal => exact replayable
    | ok next =>
      rcases replayable with rfl | ⟨source, labels, stripped, replayed⟩
      · cases accepted
      · exact .inr ⟨source, labels ++ [label], stripped, replay_concat.2 ⟨session, replayed, accepted⟩⟩
  | undo =>
    rw [Session.perform]
    cases undone : session.undo with
    | none => exact replayable
    | some next =>
      rcases replayable with rfl | ⟨source, labels, stripped, replayed⟩
      · cases undone
      · obtain ⟨shorter, replayedShorter⟩ := replay_of_undo replayed undone
        exact .inr ⟨source, shorter, stripped, replayedShorter⟩
  | reset => exact .inl rfl

theorem replayable_performAll (operations : List Operation) : (performAll operations).Replayable :=
  List.foldlRecOn operations perform (.inl rfl) fun _ replayable operation _ => replayable.perform operation

/-- An accepted reduction finds the redex that it looks for. -/
theorem contract?_of_reduce {session next : Session} {label : Int} (accepted : session.reduce label = .ok next) :
    ∃ term, session.current = some term ∧ (term.prepared.contract? (some label)).isSome := by
  obtain ⟨last, _, found, low, high, _, _⟩ := reduce_eq_ok accepted
  obtain ⟨place, -, contracted, -⟩ := Term.step_of_inRange low high
  exact ⟨last.term, by rw [current, found]; rfl, by rw [contracted]; rfl⟩

/-- A session that any operations lead to is new or a reduction sequence of its source, in which every step is the one
that its label names. Loading the source and reducing by the recorded labels gives the same session again. A reduction
that is accepted never fails to find its redex. -/
theorem reachable_session_replays (operations : List Operation) :
    let session := performAll operations
    (session.source = none ∧ session.history = [] ∨
      ∃ source term rest labels, session.source = some source ∧ Term.parse source = .ok term ∧
        session.history = { term := term.number, reduced := none } :: rest ∧ session.history.IsChain Follows ∧
        rest.map (·.reduced) = labels.map some ∧ replay source labels = .ok session) ∧
    ∀ label next, session.reduce label = .ok next →
      ∃ term, session.current = some term ∧ (term.prepared.contract? (some label)).isSome := by
  intro session
  refine ⟨?_, fun _ _ accepted => contract?_of_reduce accepted⟩
  rcases replayable_performAll operations with new | ⟨source, labels, stripped, replayed⟩
  · left
    rw [show session = {} from new]
    exact ⟨rfl, rfl⟩
  · right
    obtain ⟨sameSource, term, rest, parsed, started, recorded, chained⟩ := history_of_replay replayed
    rw [stripped] at sameSource
    exact ⟨source, term, rest, labels, sameSource, parsed, started, chained, recorded, replayed⟩

end BetaStepper.Session
