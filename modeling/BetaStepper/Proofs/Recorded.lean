import BetaStepper.Proofs.Runs

/-! # What a session has recorded

Every term in the history of a session was accepted by the guards, is numbered and has names of the grammar, since
loading establishes this and no step loses it. So nothing that only looks at a session can fail: the links of the last
step are found together with the redex that was contracted, and the whole history can be linked. -/

namespace BetaStepper

namespace Term

/-- What is true of every term in the history of a session. -/
structure Recorded (term : Term) : Prop where
  fits : term.Fits nestingLimit
  numbered : term.number = term
  named : term.namedBy Lexeme.isName = true

theorem recorded_of_parse {text : String} {term numbered : Term} (parsed : parse text = .ok term)
    (numbers : Guarded.number term = .ok numbered) : numbered.Recorded := by
  obtain ⟨fits, rfl⟩ := Guarded.number_eq_ok.1 numbers
  refine ⟨fits.of_bare_eq (bare_number term).symm, number_number term, ?_⟩
  rw [namedBy_eq_of_bare_eq (bare_number term)]
  exact namedBy_of_parse parsed

theorem Recorded.step {term next : Term} {label : Option Int} (recorded : term.Recorded)
    (stepped : Guarded.step term label = .ok next) : next.Recorded := by
  obtain ⟨rfl, -, fits⟩ := Guarded.step_eq_ok stepped
  exact ⟨fits, number_step term label, namedBy_step primable_isName recorded.named label⟩

/-- In range means found. -/
theorem Recorded.redexLabelled? {term : Term} {label : Int} (recorded : term.Recorded) (low : 1 ≤ label)
    (high : label ≤ term.redexCount) : ∃ redex, term.redexLabelled? (some label) = some redex := by
  obtain ⟨place, -, found⟩ := labelledPlace?_of_inRange recorded.numbered low high
  exact ⟨place.redex, by rw [redexLabelled?_eq, found]; rfl⟩

end Term

namespace Guarded

theorem chainFrom_of_fits {steps : List Step} {before : Term} (fitsBefore : before.Fits nestingLimit)
    (fits : ∀ step ∈ steps, step.term.Fits nestingLimit) :
    chainFrom before steps = .ok (LinkedStep.chainFrom before steps) := by
  induction steps generalizing before with
  | nil => rfl
  | cons step rest restHypothesis =>
    have fitsStep := fits step List.mem_cons_self
    have linked := restHypothesis fitsStep fun other member => fits other (List.mem_cons_of_mem step member)
    rw [chainFrom, linked, links_of_fits fitsBefore fitsStep]
    -- a step that names no redex is not looked up at all
    cases step.reduced with
    | none => rfl
    | some label => rfl

theorem chain_of_fits {steps : List Step} (fits : ∀ step ∈ steps, step.term.Fits nestingLimit) :
    chain steps = .ok (LinkedStep.chain steps) := by
  cases steps with
  | nil => rfl
  | cons step rest =>
    rw [chain, chainFrom_of_fits (fits step List.mem_cons_self) fun other member =>
      fits other (List.mem_cons_of_mem step member)]
    rfl

end Guarded

namespace Session

theorem recorded_of_replay {text : String} {labels : List Int} {session : Session}
    (replayed : replay text labels = .ok session) : ∀ step ∈ session.history, step.term.Recorded := by
  induction labels using List.reverseRecOn generalizing session with
  | nil =>
    rw [replay_nil] at replayed
    obtain ⟨term, numbered, parsed, numbers, rfl⟩ := load_eq_ok.1 replayed
    intro step member
    cases List.mem_singleton.1 member
    exact Term.recorded_of_parse parsed numbers
  | append_singleton labels label labelsHypothesis =>
    obtain ⟨before, replayedBefore, accepted⟩ := replay_concat.1 replayed
    have recordedBefore := labelsHypothesis replayedBefore
    obtain ⟨last, next, found, -, -, stepped, rfl⟩ := reduce_eq_ok accepted
    intro step member
    rcases List.mem_append.1 member with earlier | new
    · exact recordedBefore step earlier
    · cases List.mem_singleton.1 new
      exact (recordedBefore last (List.mem_of_getLast? found)).step stepped

namespace Replayable

variable {session : Session}

theorem recorded (replayable : session.Replayable) : ∀ step ∈ session.history, step.term.Recorded := by
  rcases replayable with rfl | ⟨source, labels, -, replayed⟩
  · intro step member
    cases member
  · exact recorded_of_replay replayed

theorem chained (replayable : session.Replayable) : session.history.IsChain Follows := by
  rcases replayable with rfl | ⟨source, labels, -, replayed⟩
  · exact .nil
  · obtain ⟨-, _, _, -, -, -, chained⟩ := history_of_replay replayed
    exact chained

theorem current (replayable : session.Replayable) (loaded : session.loaded = true) :
    ∃ term, session.current = some term ∧ term.Recorded := by
  cases found : session.history.getLast? with
  | none =>
    rw [List.getLast?_eq_none_iff] at found
    simp [Session.loaded, found] at loaded
  | some last =>
    exact ⟨last.term, by rw [Session.current, found]; rfl, replayable.recorded last (List.mem_of_getLast? found)⟩

theorem chain (replayable : session.Replayable) : session.chain = .ok (LinkedStep.chain session.history) :=
  Guarded.chain_of_fits fun step member => (replayable.recorded step member).fits

/-- There are no links before the first step, and from then on they are those of the redex that the last step
contracted. -/
theorem lastLinks (replayable : session.Replayable) :
    session.history.length < 2 ∧ session.lastLinks = none ∨
      ∃ before after label redex, before.Recorded ∧ after.Recorded ∧
        session.lastLinks = some (.ok (Links.between before after (some label))) ∧
        before.redexLabelled? (some label) = some redex := by
  rw [Session.lastLinks]
  split
  next last before earlier reversed =>
    right
    have history : session.history = earlier.reverse ++ [before, last] := by
      rw [← List.reverse_reverse session.history, reversed]
      simp
    have recordedBefore := replayable.recorded before (by simp [history])
    have recordedLast := replayable.recorded last (by simp [history])
    -- the last two steps of the history follow each other
    have chained := replayable.chained
    rw [history] at chained
    obtain ⟨label, named, low, high, -, -⟩ : Follows before last := by
      simpa using chained.right_of_append
    obtain ⟨redex, found⟩ := recordedBefore.redexLabelled? low high
    refine ⟨before.term, last.term, label, redex, recordedBefore, recordedLast, ?_, found⟩
    rw [named, Guarded.fullLinks_of_fits recordedBefore.fits recordedLast.fits]
  next short =>
    left
    refine ⟨?_, rfl⟩
    rw [← List.length_reverse]
    match reversed : session.history.reverse with
    | [] => simp
    | [_] => simp
    | last :: before :: earlier => exact absurd reversed (short last before earlier)

end Replayable

end Session

end BetaStepper
