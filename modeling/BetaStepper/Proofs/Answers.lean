import BetaStepper.Proofs.Nesting
import BetaStepper.Proofs.Numerals
import BetaStepper.Proofs.Quoting
import BetaStepper.Proofs.Recorded
import BetaStepper.Proofs.Spans
import BetaStepper.Shell

/-! # What a line can do

A shell whose session can be replayed answers a command in one of three ways: it accepts it, it refuses it and counts
one error, or it refuses it with a warning. `Shell.answer_run` says which, and what the shell is afterwards. The one
command that is not answered is a request for an example whose number is too long to be read; `Shell.run_oversized` is
about that one. All that is true of every run of a shell follows from these two, since an answer keeps the session
replayable. -/

namespace BetaStepper

/-! ## Refusals -/

/-- A refusal is reported by a diagnostic, and so it never leaves a handler. -/
theorem Session.Refusal.diagnostic?_signal (refusal : Refusal) :
    ∃ diagnostic, refusal.signal.diagnostic? = some diagnostic := by
  cases refusal with
  | unreadable text error => exact ⟨_, by rw [signal_unreadable]; rfl⟩
  | tooDeep | nothingLoaded | normalForm | outOfRange => exact ⟨_, rfl⟩

/-! ## Sessions with a term -/

namespace Session

variable {session next : Session}

theorem loaded_of_load {text : String} (accepted : session.load text = .ok next) : next.loaded = true := by
  obtain ⟨_, _, -, -, rfl⟩ := load_eq_ok.1 accepted
  rfl

theorem loaded_of_reduce {label : Int} (accepted : session.reduce label = .ok next) : next.loaded = true := by
  obtain ⟨_, _, -, -, -, -, rfl⟩ := reduce_eq_ok accepted
  simp [loaded]

theorem loaded_of_undo (undone : session.undo = some next) : next.loaded = true := by
  rw [undo] at undone
  split at undone
  · cases undone
  next several =>
    cases undone
    simp only [loaded, Bool.not_eq_true', List.isEmpty_eq_false_iff, ne_eq, ← List.length_eq_zero_iff,
      List.length_dropLast]
    omega

end Session

namespace Shell

/-! ## Sound shells -/

/-- The invariant of a shell. -/
structure Sound (shell : Shell) : Prop where
  nonfatal : shell.handler.fatal = false
  replayable : shell.session.Replayable

/-- One more error counted. -/
def counted (shell : Shell) : Shell :=
  { shell with handler := { shell.handler with errors := shell.handler.errors + 1 } }

/-- Where an accepted command leads. -/
inductive Moves (shell : Shell) : Session → Prompt → Prop where
  | stays : Moves shell shell.session shell.prompt
  | loads {text : String} {session : Session} (accepted : Session.load {} text = .ok session) :
      Moves shell session .redex
  | reduces {label : Int} {session : Session} (accepted : shell.session.reduce label = .ok session) :
      Moves shell session shell.prompt
  | undoes {session : Session} (undone : shell.session.undo = some session) : Moves shell session shell.prompt
  | resets : Moves shell {} .term

theorem Moves.replayable {shell : Shell} {session : Session} {prompt : Prompt} (moves : shell.Moves session prompt)
    (replayable : shell.session.Replayable) : session.Replayable := by
  cases moves with
  | stays => exact replayable
  | @loads text _ accepted =>
    have loaded : shell.session.load text = .ok session := accepted
    have performed := replayable.perform (.load text)
    rwa [Session.perform, loaded] at performed
  | @reduces label _ accepted =>
    have performed := replayable.perform (.reduce label)
    rwa [Session.perform, accepted] at performed
  | undoes undone =>
    have performed := replayable.perform .undo
    rwa [Session.perform, undone] at performed
  | resets => exact .inl rfl

/-! ## What is refused -/

/-- The number of an example that there is. -/
def Offered (choice : String) : Prop :=
  Text.isDecimal choice = true ∧
    ∃ number : Int, Text.Numeral.read choice = .ok number ∧ 1 ≤ number ∧ number ≤ catalog.length

/-- A line that is no command is refused if the session refuses to load it or, once there is a term, if it is no
number or the session refuses to reduce by it. An example is refused if there is none of that number. -/
def Refuses (shell : Shell) : Command → Prop
  | .entry line =>
    if shell.session.loaded then
      ∀ label, Text.Numeral.read (Text.strip line) = .ok label → ∃ refusal, shell.session.reduce label = .error refusal
    else ∃ refusal, shell.session.load (Text.strip line) = .error refusal
  | .examples choice => choice ≠ "" ∧ ¬ Offered choice
  | _ => False

/-- A request for an example by more digits than can be read. -/
def Oversized : Command → Prop
  | .examples choice => Text.isDecimal choice = true ∧ 4300 < choice.length
  | _ => False

/-- A warning is printed. -/
def Reply.Warns (reply : Reply) : Prop := warningHeading ∈ reply.out

inductive Answer (shell : Shell) (command : Command) (reply : Reply) : Prop where
  | accepted {session : Session} {prompt : Prompt} (moves : shell.Moves session prompt)
      (reached : reply.shell = { shell with session, prompt }) (quiet : reply.signal = none)
      (calm : ¬ reply.Warns) (willing : ¬ shell.Refuses command)
  | refused (unchanged : reply.shell = shell.counted) (quiet : reply.signal = none) (refuses : shell.Refuses command)
  | warned (unchanged : reply.shell = shell) (quiet : reply.signal = none) (warns : reply.Warns)
      (refuses : shell.Refuses command)

/-! ## Replies in general -/

theorem handled_of_quiet {reply : Reply} (quiet : reply.signal = none) : reply.handled = reply := by
  obtain ⟨shell, out, log, signal, stop⟩ := reply
  cases quiet
  simp [Reply.handled, Handler.leave]

theorem Answer.quiet {shell : Shell} {command : Command} {reply : Reply} (answer : shell.Answer command reply) :
    reply.signal = none := by
  cases answer with
  | accepted _ _ quiet | refused _ quiet | warned _ quiet => exact quiet

theorem Answer.handled {shell : Shell} {command : Command} {reply : Reply} (answer : shell.Answer command reply) :
    shell.Answer command reply.handled := by
  rwa [handled_of_quiet answer.quiet]

theorem handled_of_signal {shell : Shell} (nonfatal : shell.handler.fatal = false) {signal : Signal}
    {diagnostic : Diagnostic} (found : signal.diagnostic? = some diagnostic) (log : List Log.Event) :
    ({ shell, log, signal := some signal } : Reply).handled =
      { shell := shell.counted, out := diagnostic.report .error, log := log ++ [.failed diagnostic.text] } := by
  simp [Reply.handled, Handler.leave_of_diagnostic? found, Handler.throw, nonfatal, counted]

/-- A command that only tells something is accepted. -/
theorem Answer.told {shell : Shell} {command : Command} (willing : ¬ shell.Refuses command) (text : String)
    (stop : Bool) : shell.Answer command { shell, out := Styled.plain text, stop } := by
  have unbold : Styled.Uses Display.Unbold (fun _ => true) (Styled.plain text) := .plain rfl (Text.madeOf_any text)
  exact .accepted .stays rfl rfl (warningHeading_not_mem unbold) willing

/-- What is printed to show a term. -/
def shown (shell : Shell) (term : Term) : Styled :=
  Styled.plain "\n" ++ Display.render shell.options term ++ Styled.plain ("\n\n" ++ status shell.session)

/-- The current term of a session that can be replayed can always be shown. -/
theorem view_of_loaded {shell : Shell} (replayable : shell.session.Replayable)
    (loaded : shell.session.loaded = true) :
    ∃ term, shell.session.current = some term ∧ term.Recorded ∧ shell.view = { shell, out := shell.shown term } := by
  obtain ⟨term, isCurrent, recorded⟩ := replayable.current loaded
  have displayed : Guarded.display shell.options term = .ok (Display.render shell.options term) :=
    Guarded.all_then_eq_ok.2 ⟨recorded.fits, rfl⟩
  refine ⟨term, isCurrent, recorded, ?_⟩
  rw [view, isCurrent, Option.getD_some, displayed]
  rfl

theorem madeOf_status (session : Session) : Text.madeOf Text.isBasic (status session) = true := by
  rw [status]
  split
  · exact Text.madeOf_literal (by decide)
  · simp only [Text.madeOf_append, Text.madeOf_natToString, Bool.and_true, Bool.true_and, Bool.and_eq_true]
    exact ⟨Text.madeOf_literal (by decide), Text.madeOf_literal (by decide)⟩

theorem uses_shown {allowed : Char → Bool} (basic : ∀ c, Text.isBasic c = true → allowed c = true) {shell : Shell}
    (cleanLambda : Text.madeOf allowed shell.options.lambda = true) {term : Term}
    (named : term.namedBy (Text.madeOf allowed) = true) : Styled.Uses Display.Unbold allowed (shell.shown term) := by
  have plain {text : String} (clean : Text.madeOf Text.isBasic text = true) :
      Styled.Uses Display.Unbold allowed (Styled.plain text) :=
    .plain rfl (Text.madeOf_mono basic clean)
  have cleanEnd : Text.madeOf Text.isBasic ("\n\n" ++ status shell.session) = true := by
    rw [Text.madeOf_append, madeOf_status]
    decide
  exact ((plain (by decide)).append (Display.uses_render basic cleanLambda named)).append (plain cleanEnd)

theorem namedBy_any {term : Term} (complete : term.complete = true) :
    term.namedBy (Text.madeOf fun _ => true) = true := by
  rw [show Text.madeOf (fun _ => true) = fun _ => true from funext Text.madeOf_any, ← Term.complete_eq_namedBy]
  exact complete

/-- A command that leads to a session with a term and shows the term is accepted. -/
theorem Answer.moved {shell : Shell} {command : Command} (sound : shell.Sound) {session : Session} {prompt : Prompt}
    (moves : shell.Moves session prompt) (loaded : session.loaded = true) (willing : ¬ shell.Refuses command)
    {before : Styled} (unbold : Styled.Uses Display.Unbold (fun _ => true) before) (log : List Log.Event) :
    shell.Answer command (({ shell with session, prompt } : Shell).view.after before log) := by
  let next : Shell := { shell with session, prompt }
  have replayable : next.session.Replayable := moves.replayable sound.replayable
  obtain ⟨term, -, recorded, viewed⟩ := view_of_loaded replayable loaded
  have unboldTerm : Styled.Uses Display.Unbold (fun _ => true) (next.shown term) :=
    uses_shown (fun _ _ => rfl) (Text.madeOf_any _) (namedBy_any recorded.fits.complete)
  rw [viewed]
  exact .accepted moves rfl rfl (warningHeading_not_mem (unbold.append unboldTerm)) willing

/-! ## Commands -/

theorem answer_reduceLine {shell : Shell} (sound : shell.Sound) (loaded : shell.session.loaded = true) (line : String) :
    shell.Answer (.entry line) (shell.reduceLine (Text.strip line)).handled := by
  rw [reduceLine]
  cases numeral : Text.Numeral.read (Text.strip line) with
  | error fault =>
    have refuses : shell.Refuses (.entry line) := by simp [Refuses, loaded, numeral]
    exact Answer.handled (.warned rfl rfl (warningHeading_mem_report _) refuses)
  | ok label =>
    cases outcome : shell.session.reduce label with
    | error refusal =>
      have refuses : shell.Refuses (.entry line) := by simp [Refuses, loaded, numeral, outcome]
      obtain ⟨diagnostic, found⟩ := refusal.diagnostic?_signal
      simp only [outcome, handled_of_signal sound.nonfatal found]
      exact .refused rfl rfl refuses
    | ok session =>
      have willing : ¬ shell.Refuses (.entry line) := by simp [Refuses, loaded, numeral, outcome]
      simp only [outcome]
      exact Answer.handled (.moved sound (.reduces outcome) (Session.loaded_of_reduce outcome) willing
        (.plain rfl (Text.madeOf_any _)) _)

theorem answer_loadLine {shell : Shell} (sound : shell.Sound) (empty : ¬ shell.session.loaded = true) (line : String) :
    shell.Answer (.entry line) (shell.loadLine (Text.strip line)).handled := by
  rw [loadLine]
  cases outcome : shell.session.load (Text.strip line) with
  | error refusal =>
    have refuses : shell.Refuses (.entry line) := by simp [Refuses, empty, outcome]
    obtain ⟨diagnostic, found⟩ := refusal.diagnostic?_signal
    simp only [handled_of_signal sound.nonfatal found]
    exact .refused rfl rfl refuses
  | ok session =>
    have willing : ¬ shell.Refuses (.entry line) := by simp [Refuses, empty, outcome]
    exact Answer.handled (.moved sound (.loads outcome) (Session.loaded_of_load outcome) willing .nil _)

theorem answer_enter {shell : Shell} (sound : shell.Sound) (line : String) :
    shell.Answer (.entry line) (shell.enter line).handled := by
  rw [enter]
  split
  next loaded => exact answer_reduceLine sound loaded line
  next empty => exact answer_loadLine sound empty line

theorem answer_viewIfLoaded {shell : Shell} (sound : shell.Sound) {command : Command}
    (willing : ¬ shell.Refuses command) : shell.Answer command shell.viewIfLoaded := by
  rw [viewIfLoaded]
  split
  next loaded => exact .moved sound .stays loaded willing .nil []
  next => exact .accepted .stays rfl rfl List.not_mem_nil willing

theorem answer_undo {shell : Shell} (sound : shell.Sound) : shell.Answer .undo shell.undo := by
  rw [undo]
  cases undone : shell.session.undo with
  | none => exact .told id _ false
  | some session => exact .moved sound (.undoes undone) (Session.loaded_of_undo undone) id .nil _

theorem answer_links {shell : Shell} (sound : shell.Sound) : shell.Answer .links shell.links := by
  rw [links]
  rcases sound.replayable.lastLinks with ⟨-, none⟩ | ⟨before, after, label, redex, -, -, linked, found⟩
  · rw [none]
    exact .told id _ false
  · simp only [linked, Links.between, found]
    exact .told id _ false

theorem answer_history {shell : Shell} (sound : shell.Sound) : shell.Answer .history shell.history := by
  rw [history, sound.replayable.chain]
  split
  · exact .told id _ false
  · exact .told id _ false

/-! ## Examples -/

theorem load_of_mem_catalog {sample : Sample} (member : sample ∈ catalog) :
    ∃ session, Session.load {} (Text.strip sample.term) = .ok session := by
  have checked : (catalog.all fun sample => (Session.load {} (Text.strip sample.term)).isOk) = true := by
    decide +kernel
  have accepted := List.all_eq_true.1 checked sample member
  cases outcome : Session.load {} (Text.strip sample.term) with
  | error refusal =>
    rw [outcome] at accepted
    cases accepted
  | ok session => exact ⟨session, rfl⟩

/-- A choice that is not too long is read as a number, and by that number it is offered or not. -/
theorem number_of_choice {choice : String} (spared : ¬ Oversized (.examples choice)) :
    ∃ number : Int,
      (if Text.isDecimal choice then Text.Numeral.read choice else .ok 0) = .ok number ∧
        (Offered choice ↔ 1 ≤ number ∧ number ≤ catalog.length) := by
  by_cases decimal : Text.isDecimal choice = true
  · rcases Text.Numeral.read_of_isDecimal decimal with ⟨tooLong, -⟩ | ⟨-, value, reads⟩
    · exact absurd ⟨decimal, tooLong⟩ spared
    · exact ⟨value, by rw [if_pos decimal, reads], by simp [Offered, decimal, reads]⟩
  · exact ⟨0, by rw [if_neg decimal], by simp [Offered, decimal]⟩

theorem sample_of_inRange {number : Int} (low : 1 ≤ number) (high : number ≤ catalog.length) :
    ∃ sample ∈ catalog, (if number < 1 then none else catalog[number.toNat - 1]?) = some sample := by
  have bound : number.toNat - 1 < catalog.length := by omega
  refine ⟨catalog[number.toNat - 1], List.getElem_mem bound, ?_⟩
  rw [if_neg (by omega), List.getElem?_eq_getElem bound]

theorem no_sample_of_outOfRange {number : Int} (outside : ¬ (1 ≤ number ∧ number ≤ catalog.length)) :
    (if number < 1 then none else catalog[number.toNat - 1]?) = none := by
  split
  · rfl
  · rw [List.getElem?_eq_none_iff]
    omega

/-- Loading a sample forgets the session first, but the sample is certain to load. -/
theorem answer_sample {shell : Shell} (sound : shell.Sound) {command : Command} (willing : ¬ shell.Refuses command)
    {sample : Sample} (member : sample ∈ catalog) :
    shell.Answer command
      ((shell.reset.shell.enter sample.term).handled.after shell.reset.out shell.reset.log) := by
  obtain ⟨session, accepted⟩ := load_of_mem_catalog member
  have entered : shell.reset.shell.enter sample.term =
      ({ shell with session, prompt := .redex } : Shell).view.after [] session.loadLog := by
    have reloaded : shell.reset.shell.session.load (Text.strip sample.term) = .ok session := accepted
    have empty : ¬ shell.reset.shell.session.loaded = true := Bool.false_ne_true
    rw [enter, if_neg empty, loadLine, reloaded]
    rfl
  have loaded := Session.loaded_of_load accepted
  have answer (log : List Log.Event) :
      shell.Answer command (({ shell with session, prompt := .redex } : Shell).view.after [] log) :=
    .moved sound (.loads accepted) loaded willing .nil log
  rw [entered, handled_of_quiet (answer _).quiet]
  simpa [Reply.after, reset] using answer (.reset :: session.loadLog)

theorem answer_examples {shell : Shell} (sound : shell.Sound) {choice : String}
    (spared : ¬ Oversized (.examples choice)) : shell.Answer (.examples choice) (shell.examples choice) := by
  rw [examples]
  split
  next empty => exact .told (by simp [Refuses, empty]) catalogText false
  next given =>
    obtain ⟨number, reads, offered⟩ := number_of_choice spared
    simp only [loadExample, reads]
    by_cases inRange : 1 ≤ number ∧ number ≤ catalog.length
    · obtain ⟨sample, member, found⟩ := sample_of_inRange inRange.1 inRange.2
      have willing : ¬ shell.Refuses (.examples choice) := by simp [Refuses, offered.2 inRange]
      simp only [found]
      exact (answer_sample sound willing member).handled
    · have refuses : shell.Refuses (.examples choice) := ⟨given, fun isOffered => inRange (offered.1 isOffered)⟩
      have reported : (Signal.diagnostic (noSuchExample choice)).diagnostic? = some (noSuchExample choice) := rfl
      simp only [no_sample_of_outOfRange inRange, handled_of_signal sound.nonfatal reported]
      exact .refused rfl rfl refuses

/-! ## All commands -/

theorem answer_run {shell : Shell} (sound : shell.Sound) {command : Command} (spared : ¬ Oversized command) :
    shell.Answer command (shell.run command) := by
  cases command with
  | blank => exact answer_viewIfLoaded sound id
  | view => exact answer_viewIfLoaded sound id
  | undo => exact answer_undo sound
  | reset => exact .accepted .resets rfl rfl List.not_mem_nil id
  | links => exact answer_links sound
  | history => exact answer_history sound
  | examples choice => exact answer_examples sound spared
  | help => exact .told id helpText false
  | endOfInput => exact .told id "\n" true
  | exit => exact .accepted .stays rfl rfl List.not_mem_nil id
  | entry line => exact answer_enter sound line

/-- A number that is too long is reported like any other failure, but it is not one that a handler keeps. -/
theorem run_oversized {shell : Shell} (sound : shell.Sound) {command : Command} (oversized : Oversized command) :
    (shell.run command).shell = shell.counted ∧ ∃ defect, (shell.run command).signal = some (.defect defect true) := by
  cases command with
  | examples choice =>
    obtain ⟨decimal, tooLong⟩ := oversized
    have given : choice ≠ "" := by
      rintro rfl
      cases decimal
    have reads : Text.Numeral.read choice = .error (.tooLong choice.length) := by
      rcases Text.Numeral.read_of_isDecimal decimal with ⟨-, reads⟩ | ⟨short, -⟩
      · exact reads
      · exact absurd tooLong (Nat.not_lt.2 short)
    simp [run, examples, given, loadExample, decimal, reads, Reply.handled, Handler.leave, Handler.throw,
      sound.nonfatal, counted]
  | blank | view | undo | reset | links | history | help | endOfInput | exit | entry => cases oversized

theorem Answer.sound {shell : Shell} {command : Command} {reply : Reply} (answer : shell.Answer command reply)
    (sound : shell.Sound) : reply.shell.Sound := by
  cases answer with
  | accepted moves reached =>
    rw [reached]
    exact ⟨sound.nonfatal, moves.replayable sound.replayable⟩
  | refused unchanged =>
    rw [unchanged]
    exact ⟨sound.nonfatal, sound.replayable⟩
  | warned unchanged =>
    rw [unchanged]
    exact sound

theorem Sound.run {shell : Shell} (sound : shell.Sound) (command : Command) : (shell.run command).shell.Sound := by
  by_cases oversized : Oversized command
  · rw [(run_oversized sound oversized).1]
    exact ⟨sound.nonfatal, sound.replayable⟩
  · exact (answer_run sound oversized).sound sound

/-! ## Runs -/

/-- The shell after it has answered the lines one by one. -/
def afterLines (options : Display.Options) (lines : List String) : Shell :=
  lines.foldl (fun shell line => (shell.respond line).shell) (new options)

theorem sound_new (options : Display.Options) : (new options).Sound := ⟨rfl, .inl rfl⟩

theorem sound_afterLines (options : Display.Options) (lines : List String) : (afterLines options lines).Sound :=
  List.foldlRecOn lines _ (sound_new options) fun _ sound line _ => sound.run (Command.ofLine line)

end Shell

end BetaStepper
