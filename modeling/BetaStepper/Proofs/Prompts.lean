import BetaStepper.Proofs.Answers

/-! # What the prompt tells

The prompt is kept apart from the session, and commands change the one without the other. Still it always asks for what
the shell will take: a label if there is a term, and a term if there is none. An accepted command leads to a session and
a prompt that agree, `Moves.truthful`, and what is refused leaves both alone. -/

namespace BetaStepper

namespace Session

variable {session next : Session}

/-- Only a session with a term can be reduced. -/
theorem loaded_before_reduce {label : Int} (accepted : session.reduce label = .ok next) : session.loaded = true := by
  obtain ⟨last, _, found, -, -, -, -⟩ := reduce_eq_ok accepted
  cases history : session.history with
  | nil =>
    rw [history] at found
    cases found
  | cons first rest => simp [loaded, history]

theorem loaded_before_undo (undone : session.undo = some next) : session.loaded = true := by
  cases history : session.history with
  | nil => simp [undo, history] at undone
  | cons first rest => simp [loaded, history]

end Session

namespace Shell

/-! ## The invariant -/

/-- The prompt asks for the label of a redex exactly if there is a term. -/
def Truthful (shell : Shell) : Prop := shell.prompt = if shell.session.loaded then .redex else .term

theorem Moves.truthful {shell : Shell} {session : Session} {prompt : Prompt} (moves : shell.Moves session prompt)
    (truthful : shell.Truthful) : ({ shell with session, prompt } : Shell).Truthful := by
  cases moves with
  | stays => exact truthful
  | loads accepted =>
    rw [Truthful, Session.loaded_of_load accepted]
    rfl
  -- the prompt stays as it was, which is right because there was a term before
  | reduces accepted =>
    rw [Truthful, Session.loaded_before_reduce accepted] at truthful
    rw [Truthful, Session.loaded_of_reduce accepted]
    exact truthful
  | undoes undone =>
    rw [Truthful, Session.loaded_before_undo undone] at truthful
    rw [Truthful, Session.loaded_of_undo undone]
    exact truthful
  | resets => rfl

theorem Truthful.run {shell : Shell} (truthful : shell.Truthful) (sound : shell.Sound) (command : Command) :
    (shell.run command).shell.Truthful := by
  by_cases oversized : Oversized command
  · rw [(run_oversized sound oversized).1]
    exact truthful
  · cases answer_run sound oversized with
    | accepted moves reached =>
      rw [reached]
      exact moves.truthful truthful
    | refused unchanged =>
      rw [unchanged]
      exact truthful
    | warned unchanged =>
      rw [unchanged]
      exact truthful

theorem truthful_afterLines (options : Display.Options) (lines : List String) :
    (afterLines options lines).Truthful := by
  -- the prompt is kept true by the answers of a sound shell, so both are carried along
  have both : (afterLines options lines).Sound ∧ (afterLines options lines).Truthful := by
    refine List.foldlRecOn (motive := fun shell : Shell => shell.Sound ∧ shell.Truthful) lines _
      ⟨sound_new options, rfl⟩ ?_
    rintro shell ⟨sound, truthful⟩ line -
    exact ⟨sound.run (Command.ofLine line), truthful.run sound (Command.ofLine line)⟩
  exact both.2

/-! ## Lines that are no commands -/

/-- Takes a line for what is asked for: a term to load, or the label of a redex to contract. -/
def enterAs (shell : Shell) (line : String) : Prompt → Reply
  | .term => shell.loadLine line
  | .redex => shell.reduceLine line

/-- The session after a line has been taken for what is asked for. -/
def sessionAfter (session : Session) (line : String) : Prompt → Session
  | .term => (session.load line).toOption.getD session
  | .redex =>
    ((Text.Numeral.read line).toOption.bind fun label => (session.reduce label).toOption).getD session

theorem Truthful.enter_eq {shell : Shell} (truthful : shell.Truthful) (line : String) :
    shell.enter line = shell.enterAs (Text.strip line) shell.prompt := by
  rw [enter, truthful]
  split
  · rfl
  · rfl

@[simp] theorem shell_view (shell : Shell) : shell.view.shell = shell := by
  rw [view]
  split <;> rfl

theorem session_enterAs (shell : Shell) (line : String) (asked : Prompt) :
    (shell.enterAs line asked).handled.shell.session = sessionAfter shell.session line asked := by
  cases asked with
  | term =>
    rw [enterAs, loadLine, sessionAfter]
    cases shell.session.load line with
    | error refusal => rfl
    | ok session => simp [Reply.handled, Reply.after, Except.toOption]
  | redex =>
    rw [enterAs, reduceLine, sessionAfter]
    cases Text.Numeral.read line with
    | error fault => rfl
    | ok label =>
      simp only [Except.toOption, Option.bind_some]
      cases shell.session.reduce label with
      | error refusal => rfl
      | ok session => simp [Reply.handled, Reply.after]

/-- After any lines the prompt is `> ` exactly if there is a term and `λ> ` exactly if there is none. So the next line
that is no command is taken for what the prompt asks for: where it is `> ` the line is read as a number and the redex
with that label is contracted, and where it is `λ> ` the line is loaded as a term. -/
theorem prompt_tells_what_is_taken (options : Display.Options) (lines : List String) :
    let shell := afterLines options lines
    (shell.prompt.text = "> " ↔ shell.session.loaded = true) ∧
    (shell.prompt.text = "λ> " ↔ shell.session.loaded = false) ∧
    ∀ line entry, Command.ofLine line = .entry entry →
      shell.respond line = (shell.enterAs (Text.strip entry) shell.prompt).handled ∧
      (shell.respond line).shell.session = sessionAfter shell.session (Text.strip entry) shell.prompt := by
  intro shell
  have truthful : shell.Truthful := truthful_afterLines options lines
  refine ⟨?_, ?_, ?_⟩
  · rw [truthful]
    cases shell.session.loaded <;> decide
  · rw [truthful]
    cases shell.session.loaded <;> decide
  · intro line entry isEntry
    have taken : shell.respond line = (shell.enterAs (Text.strip entry) shell.prompt).handled := by
      rw [respond, isEntry, run, truthful.enter_eq]
    exact ⟨taken, by rw [taken, session_enterAs]⟩

end Shell

end BetaStepper
