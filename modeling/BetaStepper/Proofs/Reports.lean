import BetaStepper.Proofs.Escapes
import BetaStepper.Proofs.Quoting
import BetaStepper.Proofs.Recorded

/-! # Texts without escape characters

A text with an escape character cannot be loaded, so the source of a session has none and neither have its terms. What
is reported is made of fixed texts, of terms, and of what was entered: if that has no escape character, the report has
none. -/

namespace BetaStepper

open Text (madeOf isPlain)

/-! ## Loaded texts -/

namespace Grammar

mutual

theorem Atom.stray_not_mem (item : Atom) (c : Char) : .stray c ∉ item.tokens := by
  cases item with
  | ident name => simp [Atom.tokens]
  | paren inner => simp [Atom.tokens, inner.stray_not_mem c]

theorem Expr.stray_not_mem (expr : Expr) (c : Char) : .stray c ∉ expr.tokens := by
  cases expr with
  | atom item => exact item.stray_not_mem c
  | lambda param body => simp [Expr.tokens, body.stray_not_mem c]
  | cons first rest => simp [Expr.tokens, first.stray_not_mem c, rest.stray_not_mem c]

end

end Grammar

/-- A character that is no part of any other token is a token by itself wherever it stands. -/
theorem Tokenised.stray_mem {chars : List Char} {tokens : List Token} (tokenised : Tokenised chars tokens) {c : Char}
    (visible : Text.isBlank c = false) (foreign : Lexeme.isNameChar c = false) (unknown : Lexeme.symbol c = .stray c)
    (member : c ∈ chars) : .stray c ∈ tokens := by
  induction tokenised with
  | nil => cases member
  | blank isBlank _ restHypothesis =>
    rcases List.mem_cons.1 member with rfl | inRest
    · rw [visible] at isBlank
      cases isBlank
    · exact restHypothesis inRest
  | symbol known _ restHypothesis =>
    rcases List.mem_cons.1 member with rfl | inRest
    · rw [← (Lexeme.symbol_spec known).2.2, unknown]
      exact List.mem_cons_self
    · exact List.mem_cons_of_mem _ (restHypothesis inRest)
  | name starts named _ _ restHypothesis =>
    rcases List.mem_cons.1 member with rfl | inTail
    · rw [Lexeme.isNameStart] at starts
      simp [Lexeme.isNameChar, Char.isAlphanum, starts] at foreign
    · rcases List.mem_append.1 inTail with inName | inRest
      · rw [named c inName] at foreign
        cases foreign
      · exact List.mem_cons_of_mem _ (restHypothesis inRest)
  | stray _ _ _ _ restHypothesis =>
    rcases List.mem_cons.1 member with rfl | inRest
    · exact List.mem_cons_self
    · exact List.mem_cons_of_mem _ (restHypothesis inRest)

theorem Term.plain_of_parse {text : String} {term : Term} (parsed : parse text = .ok term) :
    madeOf isPlain text = true := by
  rw [Text.madeOf_isPlain_iff]
  intro member
  obtain ⟨expr, derived, -⟩ := parse_eq_ok_iff_derived.1 parsed
  have tokenised : Tokenised text.toList expr.tokens := Lexeme.tokenised_iff.2 derived
  exact expr.stray_not_mem _ (tokenised.stray_mem (by decide) (by decide) (by decide) member)

theorem Session.Replayable.plain_source {session : Session} (replayable : session.Replayable) {source : String}
    (found : session.source = some source) : madeOf isPlain source = true := by
  rcases replayable with rfl | ⟨text, labels, stripped, replayed⟩
  · cases found
  · obtain ⟨sameSource, term, -, parsed, -⟩ := history_of_replay replayed
    rw [found, stripped] at sameSource
    cases sameSource
    exact Term.plain_of_parse parsed

/-! ## Terms -/

namespace Term

theorem namedBy_mono {allowed other : String → Bool} (wider : ∀ name, allowed name = true → other name = true)
    {term : Term} (named : term.namedBy allowed = true) : term.namedBy other = true := by
  induction term with
  | var name => exact wider name named
  | lam param _ _ bodyHypothesis =>
    simp only [namedBy, Bool.and_eq_true] at named ⊢
    exact ⟨wider param named.1, bodyHypothesis named.2⟩
  | app _ _ _ _ funcHypothesis argHypothesis =>
    simp only [namedBy, Bool.and_eq_true] at named ⊢
    exact ⟨funcHypothesis named.1, argHypothesis named.2⟩
  | hole => cases named

theorem Recorded.plain {term : Term} (recorded : term.Recorded) : term.namedBy (madeOf isPlain) = true :=
  namedBy_mono (fun _ valid => Text.madeOf_mono Text.isPlain_of_isBasic (Text.madeOf_of_isName valid)) recorded.named

theorem plain_wrap (term : Term) {text : String} (plain : madeOf isPlain text = true) :
    madeOf isPlain (term.wrap text) = true := by
  rw [wrap]
  split
  · simp only [Text.madeOf_append, plain]
    decide
  · exact plain

theorem plain_print {lambda : String} (plainLambda : madeOf isPlain lambda = true) {term : Term}
    (named : term.namedBy (madeOf isPlain) = true) : madeOf isPlain (term.print lambda) = true := by
  induction term with
  | var => exact named
  | lam _ _ _ bodyHypothesis =>
    rw [namedBy, Bool.and_eq_true] at named
    simp only [print, Text.madeOf_append, plainLambda, named.1, bodyHypothesis named.2]
    decide
  | app func arg _ _ funcHypothesis argHypothesis =>
    rw [namedBy, Bool.and_eq_true] at named
    have plainFunc := func.plain_wrap (funcHypothesis named.1)
    have plainArg := arg.plain_wrap (argHypothesis named.2)
    simp only [print, Text.madeOf_append, plainFunc, plainArg]
    decide
  | hole => cases named

theorem namedBy_of_mem_markedRoots {allowed : String → Bool} {term node : Term} (named : term.namedBy allowed = true)
    (member : node ∈ term.markedRoots) : node.namedBy allowed = true := by
  induction term with
  | var name origin =>
    rw [markedRoots] at member
    split at member
    · exact List.mem_singleton.1 member ▸ named
    · cases member
  | lam param body origin bodyHypothesis =>
    rw [markedRoots] at member
    split at member
    · exact List.mem_singleton.1 member ▸ named
    · rw [namedBy, Bool.and_eq_true] at named
      exact bodyHypothesis named.2 member
  | app func arg label origin funcHypothesis argHypothesis =>
    rw [markedRoots] at member
    split at member
    · exact List.mem_singleton.1 member ▸ named
    · rw [namedBy, Bool.and_eq_true] at named
      rcases List.mem_append.1 member with inFunc | inArg
      · exact funcHypothesis named.1 inFunc
      · exact argHypothesis named.2 inArg
  | hole => cases member

theorem namedBy_of_redexLabelled? {allowed : String → Bool} {term : Term} (named : term.namedBy allowed = true)
    {label : Option Int} {redex : Redex} (found : term.redexLabelled? label = some redex) :
    redex.term.namedBy allowed = true := by
  rw [redexLabelled?_eq] at found
  obtain ⟨place, labelled, rfl⟩ := Option.map_eq_some_iff.1 found
  exact namedBy_at? named (at?_of_mem_redexPlaces (List.mem_of_find?_eq_some labelled))

end Term

/-! ## Reports -/

/-- No text of the spans has an escape character. -/
abbrev Styled.Clean (spans : Styled) : Prop := Styled.Uses (fun _ => True) isPlain spans

theorem Styled.clean_plain {text : String} (plain : madeOf isPlain text = true) : (Styled.plain text).Clean :=
  .plain trivial plain

namespace Diagnostic

structure Clean (diagnostic : Diagnostic) : Prop where
  message : diagnostic.message.Clean
  subject : madeOf isPlain diagnostic.subject = true

theorem Clean.quoting {before subject after : String} (plainBefore : madeOf isPlain before = true)
    (plain : madeOf isPlain subject = true) (plainAfter : madeOf isPlain after = true) (details : Details) :
    (about [{ text := before }, snippet subject, { text := after }] subject details).Clean where
  message := .cons_plain trivial plainBefore (.cons trivial plain (.cons_plain trivial plainAfter .nil))
  subject := plain

theorem Clean.telling {text : String} (plain : madeOf isPlain text = true) (details : Details) :
    (about (Styled.plain text) "" details).Clean where
  message := Styled.clean_plain plain
  subject := rfl

theorem Clean.excerpt {diagnostic : Diagnostic} (clean : diagnostic.Clean) (severity : Severity) :
    (diagnostic.excerpt severity).Clean := by
  have part {chars : List Char} (part : chars.Sublist diagnostic.subject.toList) :
      madeOf isPlain (String.ofList chars) = true := by
    rw [Text.madeOf_ofList]
    exact Text.all_of_sublist part clean.subject
  have plainBefore : madeOf isPlain (Text.takeTo diagnostic.subject diagnostic.start) = true :=
    part (List.take_sublist _ _)
  have plainPart (stop : Int) : madeOf isPlain (Text.slice diagnostic.subject diagnostic.start stop) = true :=
    part ((List.drop_sublist _ _).trans (List.take_sublist _ _))
  have plainAfter (stop : Int) : madeOf isPlain (Text.dropTo diagnostic.subject stop) = true :=
    part (List.drop_sublist _ _)
  refine .cons_plain trivial ?_ (.cons trivial (plainPart _) (.cons_plain trivial ?_ (.cons_plain trivial ?_
    (.cons trivial ?_ .nil))))
  · rw [Text.madeOf_append, plainBefore]
    decide
  · rw [Text.madeOf_append, plainAfter]
    decide
  · rw [Text.madeOf_append, Text.madeOf_repeated (by decide)]
    decide
  · rw [Text.madeOf_append, Text.madeOf_repeated (by decide)]
    decide

theorem Clean.report {diagnostic : Diagnostic} (clean : diagnostic.Clean) (severity : Severity) :
    (diagnostic.report severity).Clean := by
  have plainHeading : madeOf isPlain severity.heading = true := by cases severity <;> decide
  have newline : (Styled.plain "\n").Clean := Styled.clean_plain (by decide)
  have head : Styled.Clean (severity.style.span severity.heading :: diagnostic.message) :=
    .cons trivial plainHeading clean.message
  rw [Diagnostic.report]
  refine (Styled.Uses.append (.append ?_ head) newline).append ?_
  · split
    · exact .cons trivial (by decide) .nil
    · exact .nil
  · split
    · exact (clean.excerpt severity).append newline
    · exact .nil

end Diagnostic

/-- What a handler would print for the signal is clean. -/
def Signal.Clean : Signal → Prop
  | diagnostic made => made.Clean
  | defect cause false => madeOf isPlain (cause.kind ++ ": " ++ cause.text) = true
  | _ => True

namespace Handler

/-- What leaves a handler is an exit or has been reported. -/
theorem clean_signal_leave (handler : Handler) (signal : Option Signal) :
    ∀ raised ∈ (handler.leave signal).signal, raised.Clean := by
  obtain ⟨fatal, color, errors⟩ := handler
  intro raised member
  rcases signal with _ | made | _ | _ | code | ⟨cause, _ | _⟩ <;> cases fatal <;> cases member <;> trivial

theorem clean_out_leave (handler : Handler) {signal : Option Signal} (clean : ∀ raised ∈ signal, raised.Clean) :
    (handler.leave signal).out.Clean := by
  rcases signal with _ | signal
  · exact .nil
  · have cleanSignal : signal.Clean := clean signal rfl
    cases signal with
    | diagnostic made => exact Diagnostic.Clean.report cleanSignal .error
    | tooDeep =>
      have cleanTooDeep : tooDeep.Clean := .telling (Text.madeOf_literal (by decide)) _
      exact cleanTooDeep.report .error
    | interrupt =>
      have cleanInterrupted : interrupted.Clean := .telling (by decide) _
      exact cleanInterrupted.report .error
    | exit => exact .nil
    | defect cause reported =>
      cases reported with
      | true => exact .nil
      | false =>
        have cleanUnknown : (unknown cause).Clean := .quoting (by decide) cleanSignal (by decide) _
        exact cleanUnknown.report .error

end Handler

/-! ## Refusals -/

theorem ParseError.plain_message (error : ParseError) {text : String} (plain : madeOf isPlain text = true) :
    madeOf isPlain (error.message text) = true := by
  have plainFound : madeOf isPlain (error.found text) = true := by
    rw [found]
    split
    · decide
    next c atPosition =>
      have plainChar : isPlain c = true := List.all_eq_true.1 plain c (List.mem_of_getElem? atPosition)
      have plainText : madeOf isPlain c.toString = true := by simp [madeOf, plainChar]
      simp only [Text.madeOf_append, plainText]
      decide
  have plainExpected (expected : Expected) : madeOf isPlain expected.describe = true := by
    cases expected <;> exact Text.madeOf_literal (by decide)
  rw [message]
  split
  · exact Text.madeOf_literal (by decide)
  · simp only [Text.madeOf_append, plainFound, plainExpected, Text.plain_natToString]
    decide

namespace Session

variable {session : Session} {refusal : Refusal}

theorem clean_of_load_error {text : String} (plain : madeOf isPlain text = true)
    (refused : session.load text = .error refusal) : refusal.signal.Clean := by
  unfold load at refused
  split at refused
  next error _ =>
    cases refused
    rw [Refusal.signal_unreadable]
    exact ⟨Styled.clean_plain (error.plain_message plain), plain⟩
  next =>
    split at refused
    · cases refused
      trivial
    · cases refused

theorem clean_of_reduce_error (replayable : session.Replayable) {label : Int}
    (refused : session.reduce label = .error refusal) : refusal.signal.Clean := by
  unfold reduce at refused
  split at refused
  next =>
    cases refused
    exact Diagnostic.Clean.telling (by decide) _
  next term isCurrent =>
    dsimp only at refused
    split at refused
    next =>
      cases refused
      have recorded : term.Recorded := by
        obtain ⟨last, isLast, rfl⟩ := Option.map_eq_some_iff.1 isCurrent
        exact replayable.recorded last (List.mem_of_getLast? isLast)
      exact Diagnostic.Clean.quoting (by decide) (Term.plain_print (by decide) recorded.plain) (by decide) _
    next =>
      split at refused
      · split at refused
        · cases refused
          trivial
        · cases refused
      · cases refused
        refine Diagnostic.Clean.telling ?_ _
        simp only [Text.madeOf_append, Text.plain_natToString, Text.plain_intToString]
        decide

end Session

end BetaStepper
