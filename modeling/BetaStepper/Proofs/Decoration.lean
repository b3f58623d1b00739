import BetaStepper.Proofs.Printed

/-! # Options only decorate

The options of a shell decide what its output looks like and nothing else. A shell with other options answers every
command in the same way, up to what it prints; and if the options differ in colour only, it prints the same spans.
Colour itself comes in when the spans are rendered, and there it only adds escape sequences. -/

namespace BetaStepper

/-- The settings differ in colour at most. -/
def Display.Options.SameButColor (options others : Options) : Prop :=
  others.showLabels = options.showLabels ∧ others.lambda = options.lambda

theorem Display.render_of_sameButColor {options others : Options} (same : options.SameButColor others) (term : Term) :
    render others term = render options term := by
  rw [render, render, same.1, same.2]

/-- A handler prints in colour or not, and leaves the same behind. -/
theorem Handler.leave_withColor (handler : Handler) (color : Bool) (signal : Option Signal) :
    ({ handler with color } : Handler).leave signal =
      { handler.leave signal with handler := { (handler.leave signal).handler with color } } := by
  rcases signal with _ | made | _ | _ | code | ⟨cause, _ | _⟩ <;> rfl

namespace Shell

/-- The shell with other options. Its handler goes along. -/
def withOptions (shell : Shell) (options : Display.Options) : Shell :=
  { shell with options, handler := { shell.handler with color := options.color } }

@[simp] theorem withOptions_session (shell : Shell) (options : Display.Options) :
    (shell.withOptions options).session = shell.session := rfl

@[simp] theorem withOptions_options (shell : Shell) (options : Display.Options) :
    (shell.withOptions options).options = options := rfl

/-- `other` is what `reply` becomes if the shell has other options. -/
structure Reply.Redecorated (options : Display.Options) (reply other : Reply) : Prop where
  shell : other.shell = reply.shell.withOptions options
  signal : other.signal = reply.signal
  stop : other.stop = reply.stop
  out : reply.shell.options.SameButColor options → other.out = reply.out

variable {options : Display.Options}

theorem Reply.Redecorated.same (reply : Reply) :
    reply.Redecorated options { reply with shell := reply.shell.withOptions options } :=
  ⟨rfl, rfl, rfl, fun _ => rfl⟩

theorem Reply.Redecorated.handled {reply other : Reply} (redecorated : reply.Redecorated options other) :
    reply.handled.Redecorated options other.handled := by
  obtain ⟨_, _, _, _, _⟩ := other
  obtain ⟨rfl, rfl, rfl, sameOut⟩ := redecorated
  have left := reply.shell.handler.leave_withColor options.color reply.signal
  constructor
  case shell | signal => simp only [Reply.handled, withOptions, left]
  case stop => rfl
  case out =>
    intro same
    simp only [Reply.handled, withOptions, left]
    exact congrArg (· ++ _) (sameOut same)

theorem Reply.Redecorated.after {reply other : Reply} (redecorated : reply.Redecorated options other) (out : Styled)
    (log : List Log.Event) : (reply.after out log).Redecorated options (other.after out log) where
  shell := redecorated.shell
  signal := redecorated.signal
  stop := redecorated.stop
  out same := congrArg (out ++ ·) (redecorated.out same)

variable (shell : Shell)

theorem redecorated_say (options : Display.Options) {text other : String}
    (same : shell.options.SameButColor options → other = text) :
    (shell.say text).Redecorated options ((shell.withOptions options).say other) where
  shell := rfl
  signal := rfl
  stop := rfl
  out alike := by rw [say, say, same alike]

theorem redecorated_view (options : Display.Options) :
    shell.view.Redecorated options (shell.withOptions options).view := by
  rw [view, view]
  simp only [Guarded.display, withOptions_session, withOptions_options]
  -- whether the term can be displayed is decided before the options are looked at
  cases Visit.all nestingLimit (shell.session.current.getD .hole) with
  | error fault => exact .same _
  | ok =>
    refine ⟨rfl, rfl, rfl, ?_⟩
    intro same
    simp only [bind, Except.bind, pure, Except.pure, Display.render_of_sameButColor same]

theorem redecorated_loadLine (options : Display.Options) (line : String) :
    (shell.loadLine line).Redecorated options ((shell.withOptions options).loadLine line) := by
  simp only [loadLine, withOptions_session]
  cases shell.session.load line with
  | error refusal => exact .same _
  | ok session => exact (redecorated_view { shell with session, prompt := .redex } options).after _ _

theorem redecorated_reduceLine (options : Display.Options) (line : String) :
    (shell.reduceLine line).Redecorated options ((shell.withOptions options).reduceLine line) := by
  simp only [reduceLine, withOptions_session]
  cases Text.Numeral.read line with
  | error fault => exact .same _
  | ok label =>
    cases outcome : shell.session.reduce label with
    | error refusal =>
      simp only [outcome]
      exact .same _
    | ok session =>
      simp only [outcome]
      exact (redecorated_view { shell with session } options).after _ _

theorem redecorated_enter (options : Display.Options) (line : String) :
    (shell.enter line).Redecorated options ((shell.withOptions options).enter line) := by
  cases loaded : shell.session.loaded with
  | true =>
    simp only [enter, withOptions_session, loaded, if_true]
    exact shell.redecorated_reduceLine options (Text.strip line)
  | false =>
    simp only [enter, withOptions_session, loaded, Bool.false_eq_true, if_false]
    exact shell.redecorated_loadLine options (Text.strip line)

theorem redecorated_undo (options : Display.Options) :
    shell.undo.Redecorated options (shell.withOptions options).undo := by
  simp only [undo, withOptions_session]
  cases shell.session.undo with
  | none => exact redecorated_say shell options fun _ => rfl
  | some session => exact (redecorated_view { shell with session } options).after _ _

theorem redecorated_links (options : Display.Options) :
    shell.links.Redecorated options (shell.withOptions options).links := by
  simp only [links, withOptions_session, withOptions_options]
  cases shell.session.lastLinks with
  | none => exact redecorated_say shell options fun _ => rfl
  | some outcome =>
    cases outcome with
    | error fault => exact .same _
    | ok links =>
      cases found : links.redex with
      | none =>
        simp only [found]
        exact .same _
      | some redex =>
        simp only [found]
        -- the text has terms in it, so it depends on the sign for lambda
        apply redecorated_say
        intro same
        rw [same.2]

theorem redecorated_history (options : Display.Options) :
    shell.history.Redecorated options (shell.withOptions options).history := by
  cases loaded : shell.session.loaded with
  | false =>
    simp only [history, withOptions_session, loaded, Bool.not_false, if_true]
    exact redecorated_say shell options fun _ => rfl
  | true =>
    simp only [history, withOptions_session, loaded, Bool.not_true, Bool.false_eq_true, if_false]
    cases shell.session.chain with
    | error fault => exact .same _
    | ok chain =>
      apply redecorated_say
      intro same
      rw [withOptions_options, same.2]

theorem redecorated_examples (options : Display.Options) (choice : String) :
    (shell.examples choice).Redecorated options ((shell.withOptions options).examples choice) := by
  have loaded : (shell.loadExample choice).Redecorated options ((shell.withOptions options).loadExample choice) := by
    simp only [loadExample]
    split
    · exact .same _
    · exact .same _
    · split
      · exact .same _
      next sample _ => exact (redecorated_enter shell.reset.shell options sample.term).handled.after _ _
  simp only [examples]
  split
  · exact redecorated_say shell options fun _ => rfl
  · exact loaded.handled

theorem redecorated_viewIfLoaded (options : Display.Options) :
    shell.viewIfLoaded.Redecorated options (shell.withOptions options).viewIfLoaded := by
  cases loaded : shell.session.loaded with
  | true =>
    simp only [viewIfLoaded, withOptions_session, loaded, if_true]
    exact shell.redecorated_view options
  | false =>
    simp only [viewIfLoaded, withOptions_session, loaded, Bool.false_eq_true, if_false]
    exact .same _

theorem redecorated_run (options : Display.Options) (command : Command) :
    (shell.run command).Redecorated options ((shell.withOptions options).run command) := by
  cases command with
  | blank | view => exact shell.redecorated_viewIfLoaded options
  | undo => exact shell.redecorated_undo options
  | links => exact shell.redecorated_links options
  | history => exact shell.redecorated_history options
  | examples choice => exact shell.redecorated_examples options choice
  | help => exact shell.redecorated_say options fun _ => rfl
  | reset | endOfInput | exit => exact .same _
  | entry line => exact (shell.redecorated_enter options line).handled

/-! ## Runs -/

/-- The replies to lines that are answered one after another, also after a stop. -/
def replies (shell : Shell) : List String → List Reply
  | [] => []
  | line :: lines => shell.respond line :: replies (shell.respond line).shell lines

theorem redecorated_replies (options : Display.Options) (lines : List String) :
    List.Forall₂ (Reply.Redecorated options) (shell.replies lines) ((shell.withOptions options).replies lines) := by
  induction lines generalizing shell with
  | nil => exact .nil
  | cons line lines linesHypothesis =>
    have redecorated : (shell.respond line).Redecorated options ((shell.withOptions options).respond line) :=
      shell.redecorated_run options (Command.ofLine line)
    refine .cons redecorated ?_
    -- what answers the next line is again one shell with two settings
    have rest := linesHypothesis (shell.respond line).shell
    rwa [← redecorated.shell] at rest

/-- No reply to lines without escape characters has one, and all are given with the options of the shell. -/
theorem clean_replies {shell : Shell} (clean : shell.Clean) {lines : List String}
    (plain : ∀ line ∈ lines, '\x1b' ∉ line.toList) :
    ∀ reply ∈ shell.replies lines, reply.Clean ∧ reply.shell.options = shell.options := by
  induction lines generalizing shell with
  | nil =>
    intro reply member
    cases member
  | cons line lines linesHypothesis =>
    have cleanCommand : (Command.ofLine line).Clean :=
      Command.clean_ofLine (Text.madeOf_isPlain_iff.2 (plain line List.mem_cons_self))
    have sameOptions : (shell.respond line).shell.options = shell.options := options_run clean.sound _
    intro reply member
    rcases List.mem_cons.1 member with rfl | later
    · exact ⟨clean_run clean cleanCommand, sameOptions⟩
    · obtain ⟨cleanReply, laterOptions⟩ := linesHypothesis (clean.run _)
        (fun other inLines => plain other (List.mem_cons_of_mem line inLines)) reply later
      exact ⟨cleanReply, laterOptions.trans sameOptions⟩

/-! ## Printed text -/

/-- What a reply looks like on the terminal. -/
def Reply.text (reply : Reply) : String := reply.out.render reply.shell.options.color

/-- All that is printed while the lines are answered. -/
def output (shell : Shell) (lines : List String) : String := String.join ((shell.replies lines).map Reply.text)

/-- `other` prints without colour what `reply` prints in colour. -/
structure Reply.Bleached (reply other : Reply) : Prop where
  clean : reply.out.Clean
  text : reply.text = reply.out.render true
  other : other.text = reply.out.render false

theorem bleached_replies {options : Display.Options} (colored : options.color = true)
    (plainLambda : '\x1b' ∉ options.lambda.toList) {lines : List String}
    (plainLines : ∀ line ∈ lines, '\x1b' ∉ line.toList) :
    List.Forall₂ Reply.Bleached ((new options).replies lines)
      ((new { options with color := false }).replies lines) := by
  have clean : (new options).Clean := ⟨sound_new options, Text.madeOf_isPlain_iff.2 plainLambda⟩
  have redecorated := (new options).redecorated_replies { options with color := false } lines
  refine ((List.forall₂_and_left _ _).2 ⟨clean_replies clean plainLines, redecorated⟩).imp ?_
  rintro reply other ⟨⟨cleanReply, sameOptions⟩, same⟩
  have alike : reply.shell.options.SameButColor { options with color := false } := by
    rw [sameOptions]
    exact ⟨rfl, rfl⟩
  refine ⟨cleanReply.out, ?_, ?_⟩
  · rw [Reply.text, sameOptions]
    exact congrArg (Styled.render · reply.out) colored
  · rw [Reply.text, same.out alike, same.shell]
    rfl

/-- The sequences of one reply end before the next reply starts. -/
theorem removeEscapes_join {replies others : List Reply} (bleached : List.Forall₂ Reply.Bleached replies others) :
    Text.removeEscapes (String.join (replies.map Reply.text)) = String.join (others.map Reply.text) := by
  have chars : Text.removeSequences (String.join (replies.map Reply.text)).toList =
      (String.join (others.map Reply.text)).toList := by
    simp only [String.toList_join]
    induction bleached with
    | nil => exact Text.removeSequences_nil
    | cons first _ restHypothesis =>
      simp only [List.map_cons, List.flatMap_cons]
      rw [first.text, first.other, Styled.removeSequences_render first.clean, restHypothesis]
  rw [Text.removeEscapes, chars, String.ofList_toList]

/-- The options of a shell never change what it does: with any two settings, the replies to the same lines agree in the
session, the prompt, whether the shell stops, the signal and the number of errors. Colour never changes what is to be
read: without its escape sequences the coloured output, of every line and of all of them, is the plain one, which has
no escape character. -/
theorem options_only_decorate (options others : Display.Options) (lines : List String) :
    List.Forall₂
      (fun reply other : Reply =>
        reply.shell.session = other.shell.session ∧ reply.shell.prompt = other.shell.prompt ∧
          reply.stop = other.stop ∧ reply.signal = other.signal ∧
          reply.shell.handler.errors = other.shell.handler.errors)
      ((new options).replies lines) ((new others).replies lines) ∧
    (options.color = true → others = { options with color := false } → '\x1b' ∉ options.lambda.toList →
      (∀ line ∈ lines, '\x1b' ∉ line.toList) →
      List.Forall₂
        (fun reply other : Reply => Text.removeEscapes reply.text = other.text ∧ '\x1b' ∉ other.text.toList)
        ((new options).replies lines) ((new others).replies lines) ∧
      Text.removeEscapes ((new options).output lines) = (new others).output lines) := by
  constructor
  · refine ((new options).redecorated_replies others lines).imp ?_
    intro reply other same
    rw [same.shell, same.signal, same.stop]
    exact ⟨rfl, rfl, rfl, rfl, rfl⟩
  · rintro colored rfl plainLambda plainLines
    have bleached := bleached_replies colored plainLambda plainLines
    refine ⟨bleached.imp ?_, removeEscapes_join bleached⟩
    rintro reply other ⟨clean, text, otherText⟩
    rw [text, otherText]
    exact ⟨Styled.removeEscapes_render clean, Text.madeOf_isPlain_iff.1 (Styled.madeOf_render_false clean)⟩

theorem colors_come_off_a_session :
    let lines := ["(λx.x) y", "2", "one", "1", "links", "(x"]
    Text.removeEscapes ((new {}).output lines) = (new { color := false }).output lines := by
  intro lines
  have plainLines : ∀ line ∈ lines, '\x1b' ∉ line.toList := by decide
  exact ((options_only_decorate {} { color := false } lines).2 rfl rfl (by decide) plainLines).2

end Shell

end BetaStepper
