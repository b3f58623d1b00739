import BetaStepper.Proofs.Answers

/-! # Failures stay inside the shell

No line makes a signal leave the shell but one: a request for an example by more digits than can be read. And whatever
fails, by an error, a warning or that signal, leaves the session and the prompt as they were. Both are read off the
answers to single commands, which hold in every shell that lines can lead to. -/

namespace BetaStepper.Shell

/-! ## Signals -/

theorem signal_run_iff {shell : Shell} (sound : shell.Sound) (command : Command) :
    (shell.run command).signal.isSome = true ↔ Oversized command := by
  by_cases oversized : Oversized command
  · obtain ⟨-, defect, raised⟩ := run_oversized sound oversized
    simp [raised, oversized]
  · simp [(answer_run sound oversized).quiet, oversized]

theorem oversized_iff (command : Command) :
    Oversized command ↔
      ∃ choice, command = .examples choice ∧ Text.isDecimal choice = true ∧ 4300 < choice.length := by
  cases command <;> simp [Oversized]

/-- Any row of digits can be asked for. -/
theorem ofLine_examples {digits : List Char} (nonempty : digits ≠ []) (decimal : ∀ c ∈ digits, Text.isDigit c = true) :
    Command.ofLine ("examples " ++ String.ofList digits) = .examples (String.ofList digits) := by
  have chars : ("examples " ++ String.ofList digits).toList =
      'e' :: 'x' :: 'a' :: 'm' :: 'p' :: 'l' :: 'e' :: 's' :: ' ' :: digits := by simp
  have whole : Text.stripChars ("examples " ++ String.ofList digits).toList =
      'e' :: 'x' :: 'a' :: 'm' :: 'p' :: 'l' :: 'e' :: 's' :: ' ' :: digits := by
    rw [chars]
    apply Text.stripChars_of_ends
    · intro c first
      cases first
      decide
    · intro c last
      obtain ⟨digit, rest, rfl⟩ := List.exists_cons_of_ne_nil nonempty
      simp only [List.getLast?_cons_cons] at last
      exact (Text.isDigit_apart (decimal c (List.mem_of_getLast? last))).1
  have rest : Text.stripChars (' ' :: digits) = digits := by
    have blank : Text.isBlank ' ' = true := by decide
    rw [Text.stripChars, List.dropWhile_cons_of_pos blank, ← Text.stripChars, Text.stripChars_of_isDigit decimal]
  have cut : Command.ofLine ("examples " ++ String.ofList digits) =
      (Command.named? "examples" (String.ofList (Text.stripChars (' ' :: digits)))).getD
        (.entry (String.ofList ('e' :: 'x' :: 'a' :: 'm' :: 'p' :: 'l' :: 'e' :: 's' :: ' ' :: digits))) := by
    simp only [Command.ofLine, whole]
    rfl
  rw [cut, rest]
  rfl

/-- A line raises a signal exactly if it asks for an example by more than 4300 digits. So the commands that no handler
stands around never do, and links are always found with their redex once a step has been taken. -/
theorem only_oversized_choices_escape (options : Display.Options) (lines : List String) (line : String) :
    let shell := afterLines options lines
    ((shell.respond line).signal.isSome = true ↔
      ∃ choice, Command.ofLine line = .examples choice ∧ Text.isDecimal choice = true ∧ 4300 < choice.length) ∧
    (∀ command ∈ [Command.view, .undo, .links, .history, .blank], (shell.run command).signal = none) ∧
    (2 ≤ shell.session.history.length →
      ∃ links redex, shell.session.lastLinks = some (.ok links) ∧ links.redex = some redex) := by
  intro shell
  have sound : shell.Sound := sound_afterLines options lines
  refine ⟨?_, ?_, ?_⟩
  · rw [← oversized_iff]
    exact signal_run_iff sound (Command.ofLine line)
  · intro command member
    have spared : ¬ Oversized command := by
      simp only [List.mem_cons, List.not_mem_nil, or_false] at member
      rcases member with rfl | rfl | rfl | rfl | rfl <;> exact id
    exact (answer_run sound spared).quiet
  · intro stepped
    rcases sound.replayable.lastLinks with ⟨few, -⟩ | ⟨before, after, label, redex, -, -, linked, found⟩
    · omega
    · exact ⟨_, redex, linked, found⟩

theorem some_line_escapes : ∃ line, ((afterLines {} []).respond line).signal.isSome = true := by
  obtain ⟨digits, length, decimal⟩ :
      ∃ digits : List Char, digits.length = 4301 ∧ ∀ c ∈ digits, Text.isDigit c = true := by
    refine ⟨List.replicate 4301 '7', List.length_replicate, ?_⟩
    intro c member
    rw [List.eq_of_mem_replicate member]
    decide
  have nonempty : digits ≠ [] := List.ne_nil_of_length_pos (by omega)
  have isDecimal : Text.isDecimal (String.ofList digits) = true := by
    simpa [Text.isDecimal, nonempty] using decimal
  have tooLong : 4300 < (String.ofList digits).length := by
    rw [String.length_ofList]
    omega
  exact ⟨_, (only_oversized_choices_escape {} [] ("examples " ++ String.ofList digits)).1.2
    ⟨_, ofLine_examples nonempty decimal, isDecimal, tooLong⟩⟩

/-! ## Failures -/

/-- An error is counted, a warning is printed or a signal is raised. -/
def Reply.Fails (reply : Reply) (before : Shell) : Prop :=
  reply.shell.handler.errors ≠ before.handler.errors ∨ reply.Warns ∨ reply.signal.isSome = true

theorem refuses_of_oversized {shell : Shell} {command : Command} (oversized : Oversized command) :
    shell.Refuses command := by
  cases command with
  | examples choice =>
    obtain ⟨decimal, tooLong⟩ := oversized
    refine ⟨?_, ?_⟩
    · rintro rfl
      cases decimal
    · rintro ⟨-, number, reads, -⟩
      rcases Text.Numeral.read_of_isDecimal decimal with ⟨-, fails⟩ | ⟨short, -⟩
      · rw [reads] at fails
        cases fails
      · exact absurd tooLong (Nat.not_lt.2 short)
  | blank | view | undo | reset | links | history | help | endOfInput | exit | entry => cases oversized

theorem counted_errors_ne (shell : Shell) : shell.counted.handler.errors ≠ shell.handler.errors :=
  Nat.succ_ne_self _

theorem fails_run_iff {shell : Shell} (sound : shell.Sound) (command : Command) :
    (shell.run command).Fails shell ↔ shell.Refuses command := by
  by_cases oversized : Oversized command
  · have counted : (shell.run command).shell.handler.errors ≠ shell.handler.errors := by
      rw [(run_oversized sound oversized).1]
      exact counted_errors_ne shell
    exact ⟨fun _ => refuses_of_oversized oversized, fun _ => .inl counted⟩
  · cases answer_run sound oversized with
    | accepted _ reached quiet calm willing =>
      constructor
      · rintro (counted | warns | raised)
        · rw [reached] at counted
          exact absurd rfl counted
        · exact absurd warns calm
        · rw [quiet] at raised
          cases raised
      · exact fun refuses => absurd refuses willing
    | refused unchanged _ refuses =>
      refine ⟨fun _ => refuses, fun _ => .inl ?_⟩
      rw [unchanged]
      exact counted_errors_ne shell
    | warned _ _ warns refuses => exact ⟨fun _ => refuses, fun _ => .inr (.inl warns)⟩

theorem unchanged_of_refuses {shell : Shell} (sound : shell.Sound) {command : Command}
    (refuses : shell.Refuses command) :
    (shell.run command).shell.session = shell.session ∧ (shell.run command).shell.prompt = shell.prompt := by
  by_cases oversized : Oversized command
  · rw [(run_oversized sound oversized).1]
    exact ⟨rfl, rfl⟩
  · cases answer_run sound oversized with
    | accepted _ _ _ _ willing => exact absurd refuses willing
    | refused unchanged =>
      rw [unchanged]
      exact ⟨rfl, rfl⟩
    | warned unchanged =>
      rw [unchanged]
      exact ⟨rfl, rfl⟩

/-- A line fails exactly if the shell refuses it: a term that cannot be loaded, a label that is no number or that the
session refuses to reduce by, an example that there is not. Then the session and the prompt stay as they were. -/
theorem failing_line_changes_nothing (options : Display.Options) (lines : List String) (line : String) :
    let shell := afterLines options lines
    let reply := shell.respond line
    (reply.Fails shell ↔ shell.Refuses (Command.ofLine line)) ∧
      (reply.Fails shell → reply.shell.session = shell.session ∧ reply.shell.prompt = shell.prompt) := by
  intro shell reply
  have sound : shell.Sound := sound_afterLines options lines
  have fails : reply.Fails shell ↔ shell.Refuses (Command.ofLine line) := fails_run_iff sound (Command.ofLine line)
  exact ⟨fails, fun failed => unchanged_of_refuses sound (fails.1 failed)⟩

theorem label_out_of_range_changes_nothing :
    let shell := afterLines {} ["(λx.x) y"]
    (shell.respond "2").Fails shell ∧ (shell.respond "2").shell.session = shell.session ∧
      (shell.respond "2").shell.prompt = shell.prompt := by
  intro shell
  have fails : (shell.respond "2").Fails shell := .inl (by decide +kernel)
  exact ⟨fails, (failing_line_changes_nothing {} ["(λx.x) y"] "2").2 fails⟩

end BetaStepper.Shell
