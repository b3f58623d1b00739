import BetaStepper.Diagnostic
import BetaStepper.Proofs.Names
import BetaStepper.Display

/-! # The spans of what is printed

Everything that is printed is a row of texts in styles. `Styled.Uses` says which styles occur in it and which characters
its texts are made of; it is closed under the few ways in which output is put together. A displayed term is never bold
and has no characters but those of its names, of the sign for lambda and of fixed texts. -/

namespace BetaStepper

namespace Text

/-- The characters of fixed texts: line breaks, the lambda sign and what is printable in ASCII. -/
def isBasic (c : Char) : Bool := c == '\n' || c == 'λ' || (decide (32 ≤ c.toNat) && decide (c.toNat < 127))

/-- The text has allowed characters only. -/
def madeOf (allowed : Char → Bool) (text : String) : Bool := text.toList.all allowed

section

variable {allowed : Char → Bool}

@[simp] theorem madeOf_append (text more : String) :
    madeOf allowed (text ++ more) = (madeOf allowed text && madeOf allowed more) := by
  simp only [madeOf, String.toList_append, List.all_append]

theorem madeOf_any (text : String) : madeOf (fun _ => true) text = true := by
  simp [madeOf]

theorem madeOf_ofList (chars : List Char) : madeOf allowed (String.ofList chars) = chars.all allowed := by
  rw [madeOf, String.toList_ofList]

/-- A fixed text is its row of characters, which is checked much faster than the text is taken apart. -/
theorem madeOf_literal {chars : List Char} (checked : chars.all allowed = true) :
    madeOf allowed (String.ofList chars) = true := by
  rw [madeOf_ofList, checked]

theorem madeOf_join {texts : List String} (clean : ∀ text ∈ texts, madeOf allowed text = true) :
    madeOf allowed (String.join texts) = true := by
  simp only [madeOf, String.toList_join, List.all_flatMap]
  exact List.all_eq_true.2 clean

theorem all_of_sublist {chars more : List Char} (part : chars.Sublist more) (valid : more.all allowed = true) :
    chars.all allowed = true := by
  rw [List.all_eq_true] at valid ⊢
  exact fun c member => valid c (part.mem member)

theorem madeOf_mono {other : Char → Bool} (wider : ∀ c, allowed c = true → other c = true) {text : String}
    (clean : madeOf allowed text = true) : madeOf other text = true := by
  rw [madeOf, List.all_eq_true] at clean ⊢
  exact fun c member => wider c (clean c member)

end

theorem isBasic_of_bound {c : Char} (low : 32 ≤ c.toNat) (high : c.toNat < 127) : isBasic c = true := by
  simp [isBasic, low, high]

theorem isBasic_of_isDigit {c : Char} (digit : c.isDigit = true) : isBasic c = true := by
  obtain ⟨low, high⟩ := Char.isDigit_iff_toNat.1 digit
  exact isBasic_of_bound (Nat.le_trans (by decide) low) (Nat.lt_of_le_of_lt high (by decide))

@[simp] theorem madeOf_natToString (number : Nat) : madeOf isBasic (toString number) = true := by
  rw [madeOf, List.all_eq_true]
  intro c member
  rw [Nat.toString_eq_repr, Nat.toList_repr] at member
  exact isBasic_of_isDigit (Nat.isDigit_of_mem_toDigits (by decide) (by decide) member)

@[simp] theorem madeOf_intToString (number : Int) : madeOf isBasic (toString number) = true := by
  cases number with
  | ofNat number => exact madeOf_natToString number
  | negSucc number =>
    have signed : toString (Int.negSucc number) = "-" ++ toString (number + 1) := rfl
    rw [signed, madeOf_append, madeOf_natToString]
    decide

theorem madeOf_repeated {allowed : Char → Bool} {c : Char} (valid : allowed c = true) (count : Int) :
    madeOf allowed (repeated c count) = true := by
  simp [repeated, madeOf_ofList, valid]

/-- Names are made of basic characters. -/
theorem madeOf_of_isName {name : String} (valid : Lexeme.isName name = true) : madeOf isBasic name = true := by
  rw [madeOf, List.all_eq_true]
  rw [Lexeme.isName] at valid
  split at valid
  · cases valid
  next first rest chars =>
    rw [Bool.and_eq_true, List.all_eq_true] at valid
    rw [chars]
    intro c member
    rcases List.mem_cons.1 member with rfl | inRest
    · obtain ⟨low, high⟩ := Lexeme.bound_of_isAlpha valid.1
      exact isBasic_of_bound (by omega) (by omega)
    · obtain ⟨low, high⟩ := Lexeme.bound_of_isNameChar (valid.2 c inRest)
      exact isBasic_of_bound (by omega) (by omega)

end Text

/-! ## Styles and characters -/

theorem Style.span_default (text : String) : ({} : Style).span text = { text } := by
  simp [Style.span, Style.paint]

namespace Styled

/-- Every span is a text of allowed characters in an allowed style. -/
def Uses (styles : Style → Prop) (allowed : Char → Bool) (spans : Styled) : Prop :=
  ∀ span ∈ spans, ∃ style text, styles style ∧ Text.madeOf allowed text = true ∧ span = style.span text

variable {styles : Style → Prop} {allowed : Char → Bool}

theorem Uses.nil : Uses styles allowed [] := by
  intro span member
  cases member

theorem Uses.cons {style : Style} {text : String} {rest : Styled} (valid : styles style)
    (clean : Text.madeOf allowed text = true) (used : Uses styles allowed rest) :
    Uses styles allowed (style.span text :: rest) := by
  intro span member
  rcases List.mem_cons.1 member with rfl | inRest
  · exact ⟨style, text, valid, clean, rfl⟩
  · exact used span inRest

theorem Uses.cons_plain {text : String} {rest : Styled} (valid : styles {}) (clean : Text.madeOf allowed text = true)
    (used : Uses styles allowed rest) : Uses styles allowed ({ text } :: rest) := by
  rw [← Style.span_default]
  exact .cons valid clean used

theorem Uses.plain {text : String} (valid : styles {}) (clean : Text.madeOf allowed text = true) :
    Uses styles allowed (Styled.plain text) :=
  .cons_plain valid clean .nil

theorem Uses.append {spans more : Styled} (used : Uses styles allowed spans) (usedMore : Uses styles allowed more) :
    Uses styles allowed (spans ++ more) := by
  intro span member
  rcases List.mem_append.1 member with inSpans | inMore
  · exact used span inSpans
  · exact usedMore span inMore

theorem Uses.mono {others : Style → Prop} {spans : Styled} (used : Uses styles allowed spans)
    (wider : ∀ style, styles style → others style) : Uses others allowed spans := by
  intro span member
  obtain ⟨style, text, valid, clean, rfl⟩ := used span member
  exact ⟨style, text, wider style valid, clean, rfl⟩

end Styled

/-! ## Displayed terms -/

namespace Display

open Text (madeOf isBasic)
open Styled (Uses)

/-- A style for terms: colour and background, but not bold. -/
def Unbold (style : Style) : Prop := style.bold = false

variable {allowed : Char → Bool}

theorem uses_enclose (basic : ∀ c, isBasic c = true → allowed c = true) (term : Term) {inner : Styled → Styled}
    {rest : Styled} (used : ∀ rest, Uses Unbold allowed rest → Uses Unbold allowed (inner rest))
    (usedRest : Uses Unbold allowed rest) : Uses Unbold allowed (enclose term inner rest) := by
  rw [enclose]
  split
  · exact .cons_plain rfl (Text.madeOf_mono basic (by decide))
      (used _ (.cons_plain rfl (Text.madeOf_mono basic (by decide)) usedRest))
  · exact used rest usedRest

theorem uses_spans (basic : ∀ c, isBasic c = true → allowed c = true) {lambda : String}
    (cleanLambda : madeOf allowed lambda = true) {term : Term} (named : term.namedBy (madeOf allowed) = true)
    (depth : Nat) {rest : Styled} (usedRest : Uses Unbold allowed rest) :
    Uses Unbold allowed (spans lambda depth term rest) := by
  have fixed {text : String} (clean : madeOf isBasic text = true) : madeOf allowed text = true :=
    Text.madeOf_mono basic clean
  induction term generalizing depth rest with
  | var name origin => exact .cons rfl named usedRest
  | lam param body origin bodyHypothesis =>
    rw [Term.namedBy, Bool.and_eq_true] at named
    have cleanDot : madeOf allowed "." = true := fixed (by decide)
    have cleanHead : madeOf allowed (lambda ++ param ++ ".") = true := by simp [cleanLambda, named.1, cleanDot]
    exact .cons rfl cleanHead (bodyHypothesis named.2 depth usedRest)
  | app func arg label origin funcHypothesis argHypothesis =>
    rw [Term.namedBy, Bool.and_eq_true] at named
    -- from the right: the closing parenthesis, the argument, the blank, the function, the opening parenthesis
    have usedClosing : Uses Unbold allowed (inColor (depthColor depth) ")" :: rest) :=
      .cons rfl (fixed (by decide)) usedRest
    have usedArg := uses_enclose basic arg (fun rest used => argHypothesis named.2 (depth + 1) used) usedClosing
    have cleanBlank : madeOf allowed " " = true := fixed (by decide)
    have usedFunc := uses_enclose basic func (fun rest used => funcHypothesis named.1 (depth + 1) used)
      (.cons_plain rfl cleanBlank usedArg)
    exact .cons rfl (fixed (by decide)) usedFunc
  | hole => cases named

theorem uses_place (basic : ∀ c, isBasic c = true → allowed c = true) (column : Nat) (labels : List Label) :
    Uses Unbold allowed (place column labels) := by
  induction labels generalizing column with
  | nil => exact .nil
  | cons label labels labelsHypothesis =>
    have cleanLabel : madeOf isBasic label.text = true := by
      rw [Label.text]
      split
      · simp only [Text.madeOf_append, Text.madeOf_intToString]
        decide
      · decide
    exact .cons_plain rfl (Text.madeOf_repeated (basic ' ' (by decide)) _)
      (.cons rfl (Text.madeOf_mono basic cleanLabel) (labelsHypothesis _))

theorem uses_render (basic : ∀ c, isBasic c = true → allowed c = true) {options : Options}
    (cleanLambda : madeOf allowed options.lambda = true) {term : Term}
    (named : term.namedBy (madeOf allowed) = true) : Uses Unbold allowed (render options term) := by
  rw [render]
  split
  · exact uses_spans basic cleanLambda named 0
      (.cons_plain rfl (Text.madeOf_mono basic (by decide)) (uses_place basic 0 _))
  · exact uses_spans basic cleanLambda named 0 .nil

end Display

/-! ## Warnings -/

/-- The span that every warning starts with. -/
def warningHeading : Span := Diagnostic.Severity.warning.style.span Diagnostic.Severity.warning.heading

theorem warningHeading_not_mem {allowed : Char → Bool} {spans : Styled}
    (used : Styled.Uses Display.Unbold allowed spans) : warningHeading ∉ spans := by
  intro member
  obtain ⟨⟨foreground, onRed, bold⟩, text, unbold, -, same⟩ := used warningHeading member
  cases unbold
  -- the texts are the same, and the escape sequences in front of them differ in the weight
  have sameText : text = "warning: " := (congrArg Span.text same).symm
  subst sameText
  revert same
  cases onRed <;> rcases foreground with _ | color
  case false.none | true.none => decide
  case false.some | true.some => cases color <;> decide

theorem warningHeading_mem_report (diagnostic : Diagnostic) : warningHeading ∈ diagnostic.report .warning := by
  simp [Diagnostic.report, warningHeading]

end BetaStepper
