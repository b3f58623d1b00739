import BetaStepper.Session

/-! # Quoted text in messages

A template in which every brace is doubled has no fields: reading it gives back the characters of the text, one
literal each, however its braces are arranged. So a diagnostic that points at a position can always be made, and its
message is the one that was asked for. The step that carries the argument is `itemsFrom_quotedChar`: reading is back
where it started after each character of the text, so braces of neighbouring characters never pair up. -/

namespace BetaStepper

namespace Template

/-- The text with every character `brace` written twice. -/
def doubled (brace : Char) (text : String) : String :=
  String.ofList (text.toList.flatMap fun c => if c = brace then [c, c] else [c])

/-- Doubling one kind of brace leaves the other kind alone, so both can be done in one go. -/
theorem quote_eq_doubled (text : String) : quote text = doubled closing (doubled opening text) := by
  have apart : opening ≠ closing := by decide
  rw [quote, doubled, doubled, String.toList_ofList, List.flatMap_assoc]
  congr 2
  funext c
  by_cases opens : c = opening
  · simp [isBrace, opens, apart]
  · by_cases closes : c = closing
    · subst closes
      simp [isBrace, opens]
    · simp [isBrace, opens, closes]

/-- A brace is read together with its double, so it never meets a brace of what follows. -/
theorem itemsFrom_quotedChar (c : Char) (rest : List Char) :
    itemsFrom .text ((if isBrace c then [c, c] else [c]) ++ rest) = .literal c :: itemsFrom .text rest := by
  by_cases opens : c = opening
  · subst opens
    simp [isBrace, itemsFrom, Place.move]
  · by_cases closes : c = closing
    · subst closes
      simp [isBrace, itemsFrom, Place.move, opens]
    · simp [isBrace, itemsFrom, Place.move, opens, closes]

theorem items_quote (text : String) : items (quote text).toList = text.toList.map .literal := by
  rw [quote, String.toList_ofList, items]
  induction text.toList with
  | nil => rfl
  | cons c chars charsHypothesis =>
    rw [List.flatMap_cons, itemsFrom_quotedChar, charsHypothesis, List.map_cons]

theorem fillItems_literals (fillLayout : Filler) (snippets : List String) (numbering : Numbering)
    (chars : List Char) :
    fillItems fillLayout snippets numbering (chars.map .literal) = .ok (chars, numbering) := by
  induction chars with
  | nil => rfl
  | cons c chars charsHypothesis =>
    rw [List.map_cons, fillItems, charsHypothesis]
    rfl

theorem fill_quote (text : String) (snippets : List String) : fill (quote text) snippets = .ok text := by
  have filled : fillNested snippets depthLimit .undecided (quote text).toList = .ok (text.toList, .undecided) := by
    rw [depthLimit, fillNested, items_quote, fillItems_literals]
  simp only [fill, filled, Except.map, String.ofList_toList]

end Template

/-- The snippet fills no field, so painting it makes no difference to the message. -/
theorem Diagnostic.atPosition_eq (message text : String) (position : Int) :
    atPosition message text position =
      .ok (about (Styled.plain message) text { start := position, stop := position + 1 }) := by
  rw [atPosition, make, Template.fill_quote, Template.fill_quote]
  rfl

/-- A text that cannot be read raises a diagnostic, whatever the parser was looking for. -/
theorem Session.Refusal.signal_unreadable (text : String) (error : ParseError) :
    (unreadable text error).signal = .diagnostic (.about (Styled.plain (error.message text)) text
      { start := error.position, stop := error.position + 1 }) := by
  rw [signal, Diagnostic.atPosition_eq]
  rfl

theorem Styled.render_plain (text : String) (color : Bool) : (Styled.plain text).render color = text := by
  cases color <;> simp [Styled.plain, Styled.render, Span.render, String.join]

/-- A message that may quote text is reported verbatim. With its braces doubled it is a template that consists of
literal characters only, so it fills to the message whatever the snippets are. A diagnostic that points at a position
can therefore always be made, its message is the one asked for with colour and without, and whatever the parser was
looking for, a text that it refuses raises a diagnostic and no defect. -/
theorem quoted_message_is_verbatim (message text : String) (position : Int) :
    Template.quote message = Template.doubled Template.closing (Template.doubled Template.opening message) ∧
    Template.items (Template.quote message).toList = message.toList.map .literal ∧
    (∀ snippets, Template.fill (Template.quote message) snippets = .ok message) ∧
    (∃ diagnostic, Diagnostic.atPosition message text position = .ok diagnostic ∧
      diagnostic.text = message ∧ diagnostic.message.render true = message ∧
      diagnostic.subject = text ∧ diagnostic.start = position) ∧
    (∀ error : ParseError, ∃ diagnostic, (Session.Refusal.unreadable text error).signal = .diagnostic diagnostic ∧
      diagnostic.text = error.message text) := by
  refine ⟨Template.quote_eq_doubled message, Template.items_quote message, Template.fill_quote message, ?_, ?_⟩
  · refine ⟨_, Diagnostic.atPosition_eq message text position, ?_, ?_, rfl, rfl⟩
    · exact Styled.render_plain message false
    · exact Styled.render_plain message true
  · intro error
    exact ⟨_, Session.Refusal.signal_unreadable text error, Styled.render_plain (error.message text) false⟩

end BetaStepper
