import BetaStepper.Proofs.Answers
import BetaStepper.Proofs.Reports

/-! # What a shell prints

Nothing that a shell prints brings an escape character along, if the lines that it reads and its sign for lambda have
none. There is one lemma for each command; the sessions that a command leads to can be replayed, which is all that is
to be known of their terms. -/

namespace BetaStepper

open Text (madeOf isPlain)

theorem Text.stripChars_sublist (chars : List Char) : (stripChars chars).Sublist chars :=
  (List.rdropWhile_prefix isBlank _).sublist.trans (List.dropWhile_sublist isBlank)

/-- Linking keeps the steps. -/
theorem LinkedStep.step_mem_of_mem_chain {steps : List Step} {linked : LinkedStep} (member : linked ∈ chain steps) :
    linked.step ∈ steps := by
  have onwards (before : Term) (steps : List Step) (member : linked ∈ chainFrom before steps) :
      linked.step ∈ steps := by
    induction steps generalizing before with
    | nil => cases member
    | cons step rest restHypothesis =>
      rcases List.mem_cons.1 member with rfl | inRest
      · exact List.mem_cons_self
      · exact List.mem_cons_of_mem _ (restHypothesis step.term inRest)
  cases steps with
  | nil => cases member
  | cons step rest =>
    rcases List.mem_cons.1 member with rfl | inRest
    · exact List.mem_cons_self
    · exact List.mem_cons_of_mem _ (onwards step.term rest inRest)

/-! ## Commands -/

namespace Command

/-- The texts of the command have no escape character. -/
def Clean : Command → Prop
  | entry line => madeOf isPlain line = true
  | examples choice => madeOf isPlain choice = true
  | _ => True

theorem clean_of_named? {name rest : String} (plain : madeOf isPlain rest = true) {command : Command}
    (found : named? name rest = some command) : command.Clean := by
  unfold named? at found
  split at found <;> cases found <;> first | exact plain | trivial

theorem clean_ofLine {line : String} (plain : madeOf isPlain line = true) : (ofLine line).Clean := by
  have plainChars := Text.all_of_sublist (Text.stripChars_sublist line.toList) plain
  rw [ofLine]
  generalize Text.stripChars line.toList = chars at plainChars
  dsimp only
  split
  · trivial
  · trivial
  · have plainRest : madeOf isPlain (String.ofList (Text.stripChars (chars.dropWhile isWordChar))) = true := by
      rw [Text.madeOf_ofList]
      exact Text.all_of_sublist ((Text.stripChars_sublist _).trans (List.dropWhile_sublist _)) plainChars
    cases found : named? (String.ofList (chars.takeWhile isWordChar))
      (String.ofList (Text.stripChars (chars.dropWhile isWordChar))) with
    | none => exact (Text.madeOf_ofList chars).trans plainChars
    | some command => exact clean_of_named? plainRest found

end Command

namespace Shell

/-- What is printed is clean, and so is what a handler would print for the signal. -/
structure Reply.Clean (reply : Reply) : Prop where
  out : reply.out.Clean
  signal : ∀ raised ∈ reply.signal, raised.Clean

theorem Reply.Clean.handled {reply : Reply} (clean : reply.Clean) : reply.handled.Clean where
  out := clean.out.append (reply.shell.handler.clean_out_leave clean.signal)
  signal := reply.shell.handler.clean_signal_leave reply.signal

theorem Reply.Clean.after {reply : Reply} (clean : reply.Clean) {out : Styled} (cleanOut : out.Clean)
    (log : List Log.Event) : (reply.after out log).Clean where
  out := cleanOut.append clean.out
  signal := clean.signal

/-- A reply that raises nothing is clean if what it prints is. -/
theorem Reply.clean_of_quiet {reply : Reply} (clean : reply.out.Clean) (quiet : reply.signal = none) : reply.Clean where
  out := clean
  signal := by
    rw [quiet]
    rintro _ ⟨⟩

theorem clean_say (shell : Shell) {text : String} (plain : madeOf isPlain text = true) : (shell.say text).Clean :=
  Reply.clean_of_quiet (Styled.clean_plain plain) rfl

theorem clean_raise (shell : Shell) (log : List Log.Event) {signal : Signal} (clean : signal.Clean) :
    ({ shell, log, signal := some signal } : Reply).Clean where
  out := .nil
  signal := by
    rintro _ ⟨⟩
    exact clean

/-- The invariant of a shell whose sign for lambda has no escape character. -/
structure Clean (shell : Shell) : Prop where
  sound : shell.Sound
  lambda : madeOf isPlain shell.options.lambda = true

variable {shell : Shell}

theorem Clean.moved (clean : shell.Clean) {session : Session} {prompt : Prompt} (moves : shell.Moves session prompt) :
    ({ shell with session, prompt } : Shell).Clean where
  sound := ⟨clean.sound.nonfatal, moves.replayable clean.sound.replayable⟩
  lambda := clean.lambda

theorem clean_view (clean : shell.Clean) (loaded : shell.session.loaded = true) : shell.view.Clean := by
  obtain ⟨term, -, recorded, viewed⟩ := view_of_loaded clean.sound.replayable loaded
  rw [viewed]
  have cleanShown := uses_shown Text.isPlain_of_isBasic clean.lambda recorded.plain
  exact Reply.clean_of_quiet (cleanShown.mono fun _ _ => trivial) rfl

theorem clean_loadLine (clean : shell.Clean) {line : String} (plain : madeOf isPlain line = true) :
    (shell.loadLine line).Clean := by
  rw [loadLine]
  cases outcome : shell.session.load line with
  | error refusal => exact shell.clean_raise [] (Session.clean_of_load_error plain outcome)
  | ok session =>
    exact (clean_view (clean.moved (.loads outcome)) (Session.loaded_of_load outcome)).after .nil _

theorem clean_reduceLine (clean : shell.Clean) {line : String} (plain : madeOf isPlain line = true) :
    (shell.reduceLine line).Clean := by
  rw [reduceLine]
  cases Text.Numeral.read line with
  | error fault =>
    have cleanWarning : (notALabel line).Clean :=
      .quoting (by decide) plain (Text.madeOf_literal (by decide)) _
    exact Reply.clean_of_quiet (cleanWarning.report .warning) rfl
  | ok label =>
    cases outcome : shell.session.reduce label with
    | error refusal =>
      -- what has been logged so far is not printed
      simp only [outcome]
      exact shell.clean_raise _ (Session.clean_of_reduce_error clean.sound.replayable outcome)
    | ok session =>
      have cleanHead : madeOf isPlain ("\nAfter reducing redex [" ++ toString label ++ "]:\n") = true := by
        simp only [Text.madeOf_append, Text.plain_intToString]
        decide
      have cleanNext := clean_view (clean.moved (.reduces outcome)) (Session.loaded_of_reduce outcome)
      simp only [outcome]
      exact cleanNext.after (Styled.clean_plain cleanHead) _

theorem clean_enter (clean : shell.Clean) {line : String} (plain : madeOf isPlain line = true) :
    (shell.enter line).Clean := by
  have plainLine : madeOf isPlain (Text.strip line) = true := by
    rw [Text.strip, Text.madeOf_ofList]
    exact Text.all_of_sublist (Text.stripChars_sublist _) plain
  rw [enter]
  split
  · exact clean_reduceLine clean plainLine
  · exact clean_loadLine clean plainLine

theorem clean_undo (clean : shell.Clean) : shell.undo.Clean := by
  rw [undo]
  cases undone : shell.session.undo with
  | none => exact shell.clean_say (by decide)
  | some session =>
    exact (clean_view (clean.moved (.undoes undone)) (Session.loaded_of_undo undone)).after .nil _

theorem plain_resultLines {results : List String} (plain : ∀ result ∈ results, madeOf isPlain result = true) :
    madeOf isPlain (String.join (results.map fun result => "  result:     " ++ result ++ "\n")) = true := by
  apply Text.madeOf_join
  intro text member
  obtain ⟨result, inResults, rfl⟩ := List.mem_map.1 member
  simp only [Text.madeOf_append, plain result inResults]
  decide

theorem clean_links (clean : shell.Clean) : shell.links.Clean := by
  rw [links]
  rcases clean.sound.replayable.lastLinks with
    ⟨-, none⟩ | ⟨before, after, label, redex, recorded, recordedAfter, linked, found⟩
  · rw [none]
    exact shell.clean_say (Text.madeOf_literal (by decide))
  · simp only [linked, Links.between, found]
    have namedRedex := Term.namedBy_of_redexLabelled? recorded.plain found
    have plainRedex := Term.plain_print clean.lambda namedRedex
    simp only [Redex.term, Term.namedBy, Bool.and_eq_true] at namedRedex
    have plainArg := Term.plain_print clean.lambda namedRedex.2
    have plainCopies (copy : Term) (member : copy ∈ after.copiesFrom (some label)) :
        madeOf isPlain (copy.print shell.options.lambda) = true := by
      have inRoots : copy ∈ after.markedRoots := List.mem_of_mem_filter member
      exact Term.plain_print clean.lambda (Term.namedBy_of_mem_markedRoots recordedAfter.plain inRoots)
    apply clean_say
    rw [Text.madeOf_append, plain_resultLines]
    · simp only [Text.madeOf_append, plainRedex, plainArg, Text.plain_intToString, Text.plain_natToString,
        namedRedex.1.1]
      decide
    · intro result member
      rcases List.mem_append.1 member with discarded | printed
      · split at discarded
        · cases discarded
        · rw [List.mem_singleton.1 discarded]
          decide
      · obtain ⟨copy, inCopies, rfl⟩ := List.mem_map.1 printed
        exact plainCopies copy inCopies

theorem plain_historyLine {lambda : String} (plainLambda : madeOf isPlain lambda = true) (index : Nat)
    {linked : LinkedStep} (recorded : linked.step.term.Recorded) :
    madeOf isPlain (historyLine lambda index linked) = true := by
  have plainTerm := Term.plain_print plainLambda recorded.plain
  rw [historyLine]
  split
  · simp only [Text.madeOf_append, plainTerm, Text.plain_intToString, Text.plain_natToString]
    decide
  · simp only [Text.madeOf_append, plainTerm, Text.plain_natToString]
    decide

theorem clean_history (clean : shell.Clean) : shell.history.Clean := by
  rw [history, clean.sound.replayable.chain]
  split
  · exact shell.clean_say (by decide)
  · apply clean_say
    have plainSource : madeOf isPlain (shell.session.source.getD "None") = true := by
      cases found : shell.session.source with
      | none => decide
      | some source => exact clean.sound.replayable.plain_source found
    have plainLines : madeOf isPlain (String.join
        ((LinkedStep.chain shell.session.history).mapIdx (historyLine shell.options.lambda))) = true := by
      apply Text.madeOf_join
      intro text member
      obtain ⟨index, bound, rfl⟩ := List.mem_mapIdx.1 member
      exact plain_historyLine clean.lambda index
        (clean.sound.replayable.recorded _ (LinkedStep.step_mem_of_mem_chain (List.getElem_mem bound)))
    simp only [Text.madeOf_append, plainSource, plainLines]
    decide

theorem plain_of_mem_catalog : ∀ sample ∈ catalog, madeOf isPlain sample.name = true ∧
    madeOf isPlain sample.description = true ∧ madeOf isPlain sample.term = true := by
  simp only [catalog, List.forall_mem_cons]
  and_intros
  all_goals first | exact Text.madeOf_literal (by decide) | exact nofun

theorem plain_catalogText : madeOf isPlain catalogText = true := by
  rw [catalogText, Text.madeOf_append, Bool.and_eq_true]
  refine ⟨?_, Text.madeOf_literal (by decide)⟩
  apply Text.madeOf_join
  intro text member
  obtain ⟨index, bound, rfl⟩ := List.mem_mapIdx.1 member
  obtain ⟨plainName, plainDescription, plainTerm⟩ := plain_of_mem_catalog _ (List.getElem_mem bound)
  simp only [Text.madeOf_append, plainName, plainDescription, plainTerm, Text.plain_natToString]
  decide

theorem plain_helpText : madeOf isPlain helpText = true := by
  simp only [helpText, Text.madeOf_append, Bool.and_eq_true]
  and_intros <;> exact Text.madeOf_literal (by decide)

theorem clean_examples (clean : shell.Clean) {choice : String} (plain : madeOf isPlain choice = true) :
    (shell.examples choice).Clean := by
  have cleanNone : (noSuchExample choice).Clean := by
    refine .quoting ?_ plain (by decide) _
    simp only [Text.madeOf_append, Bool.and_eq_true, Text.plain_natToString, and_true]
    and_intros <;> exact Text.madeOf_literal (by decide)
  have cleanLoad : (shell.loadExample choice).Clean := by
    rw [loadExample]
    dsimp only
    split
    next digits _ =>
      apply shell.clean_raise []
      rw [Signal.Clean, tooManyDigits]
      simp only [Text.madeOf_append, Bool.and_eq_true, Text.plain_natToString, and_true]
      and_intros <;> exact Text.madeOf_literal (by decide)
    next => exact shell.clean_raise [] cleanNone
    next =>
      split
      next => exact shell.clean_raise [] cleanNone
      next sample found =>
        have member : sample ∈ catalog := by
          split at found
          · cases found
          · exact List.mem_of_getElem? found
        -- the sample is entered into a shell that has forgotten its session, and that is handled twice
        have cleanReset : shell.reset.shell.Clean := clean.moved .resets
        exact (clean_enter cleanReset (plain_of_mem_catalog sample member).2.2).handled.after .nil _
  rw [examples]
  split
  · exact shell.clean_say plain_catalogText
  · exact cleanLoad.handled

/-! ## All commands -/

theorem clean_run (clean : shell.Clean) {command : Command} (cleanCommand : command.Clean) :
    (shell.run command).Clean := by
  have cleanViewIfLoaded : shell.viewIfLoaded.Clean := by
    rw [viewIfLoaded]
    split
    next loaded => exact clean_view clean loaded
    next => exact Reply.clean_of_quiet .nil rfl
  cases command with
  | blank | view => exact cleanViewIfLoaded
  | undo => exact clean_undo clean
  | reset => exact Reply.clean_of_quiet .nil rfl
  | links => exact clean_links clean
  | history => exact clean_history clean
  | examples choice => exact clean_examples clean cleanCommand
  | help => exact shell.clean_say plain_helpText
  | endOfInput => exact Reply.clean_of_quiet (Styled.clean_plain (by decide)) rfl
  | exit => exact Reply.clean_of_quiet .nil rfl
  | entry line => exact (clean_enter clean cleanCommand).handled

theorem options_run (sound : shell.Sound) (command : Command) :
    (shell.run command).shell.options = shell.options := by
  by_cases oversized : Oversized command
  · rw [(run_oversized sound oversized).1, counted]
  · cases answer_run sound oversized with
    | accepted _ reached => rw [reached]
    | refused unchanged => rw [unchanged, counted]
    | warned unchanged => rw [unchanged]

theorem Clean.run (clean : shell.Clean) (command : Command) : (shell.run command).shell.Clean where
  sound := clean.sound.run command
  lambda := by rw [options_run clean.sound, clean.lambda]

end Shell

end BetaStepper
