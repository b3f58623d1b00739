import BetaStepper.Proofs.Spans

/-! # Escape sequences

What is printed in colour differs from what is printed without by escape sequences only: if no text has an escape
character of its own, every sequence is found again and removing them all gives the plain output. A text that ends with
that character could otherwise make a sequence together with what comes next. -/

namespace BetaStepper

namespace Text

/-- Any character but the one that escape sequences start with. -/
def isPlain (c : Char) : Bool := c != '\x1b'

theorem isPlain_of_isBasic (c : Char) (basic : isBasic c = true) : isPlain c = true := by
  rw [isPlain, bne_iff_ne]
  rintro rfl
  exact absurd basic (by decide)

@[simp] theorem plain_natToString (number : Nat) : madeOf isPlain (toString number) = true :=
  madeOf_mono isPlain_of_isBasic (madeOf_natToString number)

@[simp] theorem plain_intToString (number : Int) : madeOf isPlain (toString number) = true :=
  madeOf_mono isPlain_of_isBasic (madeOf_intToString number)

theorem madeOf_isPlain_iff {text : String} : madeOf isPlain text = true ↔ '\x1b' ∉ text.toList := by
  simp only [madeOf, List.all_eq_true, isPlain, bne_iff_ne]
  exact ⟨fun plain member => plain _ member rfl, fun absent c member same => absent (same ▸ member)⟩

/-- Codes consist of digits and semicolons. -/
def isCodeChar (c : Char) : Bool := c.isDigit || c == ';'

/-- What follows the escape sequence at the front, if there is one: the escape character, a bracket, a code and the
letter that ends it. -/
def afterSequence? : List Char → Option (List Char)
  | '\x1b' :: '[' :: rest =>
    match rest.dropWhile isCodeChar with
    | 'm' :: after => some after
    | _ => none
  | _ => none

theorem afterSequence?_eq_some {chars after : List Char} :
    afterSequence? chars = some after ↔
      ∃ code, (∀ c ∈ code, isCodeChar c = true) ∧ chars = '\x1b' :: '[' :: (code ++ 'm' :: after) := by
  constructor
  · intro found
    unfold afterSequence? at found
    split at found
    next rest =>
      split at found
      next _ ends =>
        cases found
        refine ⟨rest.takeWhile isCodeChar, List.all_eq_true.1 List.all_takeWhile, ?_⟩
        rw [← ends, List.takeWhile_append_dropWhile]
      next => cases found
    next => cases found
  · rintro ⟨code, valid, rfl⟩
    rw [afterSequence?, List.dropWhile_append_of_pos valid, List.dropWhile_cons_of_neg (by decide)]
    rfl

theorem afterSequence?_of_isPlain {c : Char} (plain : isPlain c = true) (rest : List Char) :
    afterSequence? (c :: rest) = none := by
  rw [Option.eq_none_iff_forall_ne_some]
  intro after found
  obtain ⟨code, -, start⟩ := afterSequence?_eq_some.1 found
  rw [(List.cons.inj start).1] at plain
  exact absurd plain (by decide)

theorem length_lt_of_afterSequence? {chars after : List Char} (found : afterSequence? chars = some after) :
    after.length < chars.length := by
  obtain ⟨code, -, rfl⟩ := afterSequence?_eq_some.1 found
  simp only [List.length_cons, List.length_append]
  omega

/-- The characters without the escape sequences among them. -/
def removeSequences : List Char → List Char
  | [] => []
  | c :: rest =>
    match found : afterSequence? (c :: rest) with
    | some after =>
      have := length_lt_of_afterSequence? found
      removeSequences after
    | none => c :: removeSequences rest
termination_by chars => chars.length
decreasing_by
  · exact this
  · exact Nat.lt_succ_self rest.length

/-- The text without its escape sequences. -/
def removeEscapes (text : String) : String := String.ofList (removeSequences text.toList)

theorem removeSequences_nil : removeSequences [] = [] := by
  rw [removeSequences]

theorem removeSequences_of_found {chars after : List Char} (found : afterSequence? chars = some after) :
    removeSequences chars = removeSequences after := by
  cases chars with
  | nil => cases found
  | cons c rest =>
    rw [removeSequences]
    split
    next other foundOther =>
      rw [found] at foundOther
      cases foundOther
      rfl
    next missing =>
      rw [found] at missing
      cases missing

theorem removeSequences_escape {code : String} (valid : code.toList.all isCodeChar = true) (rest : List Char) :
    removeSequences ((escape code).toList ++ rest) = removeSequences rest := by
  apply removeSequences_of_found
  exact afterSequence?_eq_some.2 ⟨code.toList, List.all_eq_true.1 valid, by simp [escape]⟩

theorem removeSequences_append {chars : List Char} (plain : chars.all isPlain = true) (rest : List Char) :
    removeSequences (chars ++ rest) = chars ++ removeSequences rest := by
  induction chars with
  | nil => rfl
  | cons c chars charsHypothesis =>
    rw [List.all_cons, Bool.and_eq_true] at plain
    rw [List.cons_append, removeSequences]
    split
    next found =>
      rw [afterSequence?_of_isPlain plain.1] at found
      cases found
    next => rw [charsHypothesis plain.2, List.cons_append]

end Text

/-! ## Painted text -/

open Text (removeSequences isPlain madeOf)

theorem Style.removeSequences_opening (style : Style) (rest : List Char) :
    removeSequences (style.opening.toList ++ rest) = removeSequences rest := by
  obtain ⟨foreground, onRed, bold⟩ := style
  -- every part of the opening is empty or a sequence
  have weight (rest : List Char) :
      removeSequences ((if bold then escape "1" else "").toList ++ rest) = removeSequences rest := by
    cases bold with
    | false => simp
    | true => exact Text.removeSequences_escape (by decide) rest
  have background (rest : List Char) :
      removeSequences ((if onRed then escape "41" else "").toList ++ rest) = removeSequences rest := by
    cases onRed with
    | false => simp
    | true => exact Text.removeSequences_escape (by decide) rest
  rw [opening, String.toList_append, String.toList_append, List.append_assoc, List.append_assoc, weight, background]
  cases foreground with
  | none => simp
  | some color => exact Text.removeSequences_escape (by cases color <;> decide) rest

theorem Style.removeSequences_paint (style : Style) {text : String} (plain : madeOf isPlain text = true)
    (rest : List Char) :
    removeSequences ((style.paint text).toList ++ rest) = text.toList ++ removeSequences rest := by
  rw [paint]
  split
  · exact Text.removeSequences_append plain rest
  · rw [String.toList_append, String.toList_append, List.append_assoc, List.append_assoc,
      Style.removeSequences_opening, Text.removeSequences_append plain, Text.removeSequences_escape (by decide)]

namespace Styled

variable {styles : Style → Prop} {spans : Styled}

theorem removeSequences_render (used : Uses styles isPlain spans) (rest : List Char) :
    removeSequences ((spans.render true).toList ++ rest) = (spans.render false).toList ++ removeSequences rest := by
  simp only [render, String.toList_join]
  induction spans with
  | nil => rfl
  | cons span spans spansHypothesis =>
    obtain ⟨style, text, -, plain, rfl⟩ := used span List.mem_cons_self
    have remaining := spansHypothesis fun other member => used other (List.mem_cons_of_mem _ member)
    simp only [List.map_cons, List.flatMap_cons, List.append_assoc]
    rw [← remaining]
    exact style.removeSequences_paint plain _

theorem removeEscapes_render (used : Uses styles isPlain spans) :
    Text.removeEscapes (spans.render true) = spans.render false := by
  have whole := removeSequences_render used []
  simp only [List.append_nil, Text.removeSequences_nil] at whole
  rw [Text.removeEscapes, whole, String.ofList_toList]

theorem madeOf_render_false (used : Uses styles isPlain spans) : madeOf isPlain (spans.render false) = true := by
  apply Text.madeOf_join
  intro text member
  obtain ⟨span, inSpans, rfl⟩ := List.mem_map.1 member
  obtain ⟨style, text, -, plain, rfl⟩ := used span inSpans
  exact plain

/-- In colour or not, what is left without escape sequences is the plain output. -/
theorem removeEscapes_render_any (used : Uses styles isPlain spans) (color : Bool) :
    Text.removeEscapes (spans.render color) = spans.render false := by
  cases color with
  | true => exact removeEscapes_render used
  | false =>
    have unchanged := Text.removeSequences_append (madeOf_render_false used) []
    rw [Text.removeSequences_nil, List.append_nil] at unchanged
    rw [Text.removeEscapes, unchanged, String.ofList_toList]

end Styled

end BetaStepper
