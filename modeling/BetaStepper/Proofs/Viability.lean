import BetaStepper.Proofs.Parsing

/-! # Where a text goes wrong

The position in an error is exact: up to there the text can be continued to the text of a term, and with one character
more it cannot. The first half holds because every state of the parser can be completed (`Reached.viable`). For the
second half it is not enough that the parser refuses a lexeme, since other texts may go on with another lexeme there;
but all lexemes that start with the same character are refused alike. -/

namespace BetaStepper

open Grammar
open Lexeme (isNameStart isNameChar scanFrom symbol)
open Text (isBlank)

/-! ## Lexemes by their first character -/

namespace Lexeme

/-- The character is the first of the token in some text. -/
inductive Starts (c : Char) : Token → Prop where
  | name (text : String) : isNameStart c = true → Starts c (.name text)
  | symbol : isBlank c = false → isNameStart c = false → Starts c (symbol c)

theorem Starts.tokenised {c : Char} {token : Token} (starts : Starts c token) (more : List Char) :
    ∃ other row, Starts c other ∧ Tokenised (c :: more) (other :: row) := by
  have tokenised := tokenised_scanFrom 0 (c :: more)
  cases starts with
  | name text isStart =>
    rw [scanFrom_cons, if_neg (by simp [not_isBlank_of_isNameStart isStart]), if_pos isStart] at tokenised
    exact ⟨_, _, .name _ isStart, tokenised⟩
  | symbol notBlank notName =>
    rw [scanFrom_cons, if_neg (by simp [notBlank]), if_neg (by simp [notName])] at tokenised
    exact ⟨_, _, .symbol notBlank notName, tokenised⟩

/-- A lexeme at which the characters are cut: it starts with `c`, and the lexemes before it are those of `front`. They
stay the same if other characters follow `c`. -/
structure CutAt (position : Nat) (chars : List Char) (before : List Token) (lexeme : Lexeme) (front : List Char)
    (c : Char) (back : List Char) : Prop where
  whole : chars = front ++ c :: back
  place : lexeme.position = position + front.length
  starts : Starts c lexeme.token
  tokenised : Tokenised front before
  joins : ∀ more row, Tokenised (c :: more) row → Tokenised (front ++ c :: more) (before ++ row)

/-- What stands in front of a cut text has to be cut alike whether the text goes on as it does or ends at once. -/
theorem CutAt.prepend (lead : List Char) (leadTokens : List Token) {position : Nat} {chars : List Char}
    {before : List Token} {lexeme : Lexeme} {front : List Char} {c : Char} {back : List Char}
    (cut : CutAt (position + lead.length) chars before lexeme front c back)
    (lift : ∀ rest row, (rest = [] ∨ rest.head? = chars.head?) → Tokenised rest row →
      Tokenised (lead ++ rest) (leadTokens ++ row)) :
    CutAt position (lead ++ chars) (leadTokens ++ before) lexeme (lead ++ front) c back where
  whole := by rw [cut.whole, List.append_assoc]
  place := by rw [cut.place, List.length_append, Nat.add_assoc]
  starts := cut.starts
  tokenised := by
    refine lift front before ?_ cut.tokenised
    rw [cut.whole]
    cases front with
    | nil => exact .inl rfl
    | cons => exact .inr rfl
  joins := by
    intro more row tokenised
    rw [List.append_assoc, List.append_assoc]
    refine lift _ _ (.inr ?_) (cut.joins more row tokenised)
    rw [cut.whole]
    cases front <;> rfl

/-- Every lexeme cuts the characters that are scanned. -/
theorem scanFrom_cut {position : Nat} {chars : List Char} {before after : List Lexeme} {lexeme : Lexeme}
    (scanned : scanFrom position chars = before ++ lexeme :: after) :
    ∃ front c back, CutAt position chars (before.map (·.token)) lexeme front c back := by
  -- the lexeme is the first one, or it cuts what is left after the first one
  fun_induction scanFrom position chars generalizing before with
  | case1 => simp at scanned
  | case2 position first rest blank restHypothesis =>
    obtain ⟨front, c, back, cut⟩ := restHypothesis scanned
    exact ⟨first :: front, c, back, cut.prepend [first] [] fun _ _ _ tokenised => .blank blank tokenised⟩
  | case3 position first rest notBlank isStart tail =>
    rename_i restHypothesis
    cases before with
    | nil =>
      cases scanned
      exact ⟨[], first, rest, rfl, rfl, .name _ isStart, .nil, fun _ _ tokenised => tokenised⟩
    | cons lexemeBefore before =>
      rw [List.cons_append, List.cons.injEq] at scanned
      obtain ⟨rfl, scanned⟩ := scanned
      obtain ⟨front, c, back, cut⟩ := restHypothesis scanned
      have lengths : position + 1 + tail.length = position + (first :: tail).length := by simp; omega
      have joined : first :: rest = (first :: tail) ++ rest.dropWhile isNameChar := by
        rw [List.cons_append, List.takeWhile_append_dropWhile]
      rw [lengths] at cut
      rw [joined]
      refine ⟨first :: tail ++ front, c, back, cut.prepend _ [.name (String.ofList (first :: tail))] ?_⟩
      intro others row alike tokenised
      refine .name isStart (List.all_eq_true.1 List.all_takeWhile) ?_ tokenised
      -- the name ends before whatever starts like the characters that ended it
      intro next found
      rcases alike with rfl | sameHead
      · cases found
      · have stopped := List.head?_dropWhile_not isNameChar rest
        rw [Option.mem_def, sameHead] at found
        rwa [found] at stopped
  | case4 position first rest notBlank notName restHypothesis =>
    have visible : isBlank first = false := by simpa using notBlank
    have foreign : isNameStart first = false := by simpa using notName
    cases before with
    | nil =>
      cases scanned
      exact ⟨[], first, rest, rfl, rfl, .symbol visible foreign, .nil, fun _ _ tokenised => tokenised⟩
    | cons lexemeBefore before =>
      rw [List.cons_append, List.cons.injEq] at scanned
      obtain ⟨rfl, scanned⟩ := scanned
      obtain ⟨front, c, back, cut⟩ := restHypothesis scanned
      exact ⟨first :: front, c, back,
        cut.prepend [first] [symbol first] fun _ _ _ tokenised => tokenised_symbol_cons visible foreign tokenised⟩

end Lexeme

/-! ## States of the parser -/

namespace Parser

theorem Pending.completed {before : List Token} {frames : List Frame} {built : Option Term}
    (pending : Pending before frames built) (expr : Expr) :
    ∃ depth, ∃ whole : Expr, whole.tokens = before ++ (expr.tokens ++ List.replicate depth .rightParen) := by
  -- the row grows to the left until all that was open is part of it
  induction pending generalizing expr with
  | start => exact ⟨0, expr, by simp⟩
  | item item _ beforeHypothesis =>
    obtain ⟨depth, whole, tokens⟩ := beforeHypothesis (.cons item expr)
    exact ⟨depth, whole, by rw [tokens, Expr.tokens]; simp⟩
  | paren _ beforeHypothesis =>
    obtain ⟨depth, whole, tokens⟩ := beforeHypothesis (.atom (.paren expr))
    exact ⟨depth + 1, whole, by rw [tokens, Expr.tokens, Atom.tokens]; simp [List.replicate_succ]⟩
  | lambda param _ beforeHypothesis =>
    obtain ⟨depth, whole, tokens⟩ := beforeHypothesis (.lambda param expr)
    exact ⟨depth, whole, by rw [tokens, Expr.tokens]; simp⟩

/-- A state that refuses one token refuses every token that starts with the same character. -/
theorem State.refuses_alike {state : State} {c : Char} {token other : Token} {expected : Expected}
    (starts : Lexeme.Starts c token) (otherStarts : Lexeme.Starts c other)
    (refused : state.advance token = .error expected) : ∃ expected, state.advance other = .error expected := by
  cases starts with
  | name text isStart =>
    cases otherStarts with
    | name otherText =>
      -- which name it is never matters, only whether there may be one
      obtain ⟨frames, built, stage⟩ := state
      cases stage with
      | term | parameter => cases refused
      | dot => exact ⟨.dot, rfl⟩
    | symbol _ notName => rw [isStart] at notName; cases notName
  | symbol _ notName =>
    cases otherStarts with
    | name _ isStart => rw [isStart] at notName; cases notName
    | symbol => exact ⟨expected, refused⟩

/-- A run fails at the end of the text or at the first lexeme that is refused. -/
theorem State.run_eq_error {stop : Nat} {state : State} {lexemes : List Lexeme} {error : ParseError}
    (failed : state.run stop lexemes = .error error) :
    (∃ last, state.read (lexemes.map (·.token)) = .ok last ∧ error.position = stop) ∨
      ∃ before lexeme after reached expected, lexemes = before ++ lexeme :: after ∧
        state.read (before.map (·.token)) = .ok reached ∧ reached.advance lexeme.token = .error expected ∧
        error.position = lexeme.position := by
  induction lexemes generalizing state with
  | nil =>
    rw [run] at failed
    cases finished : state.finish with
    | ok term => simp [finished] at failed
    | error expected =>
      simp only [finished, Except.error.injEq] at failed
      exact .inl ⟨state, rfl, by rw [← failed]⟩
  | cons lexeme rest restHypothesis =>
    rw [run] at failed
    cases advanced : state.advance lexeme.token with
    | error expected =>
      simp only [advanced, Except.error.injEq] at failed
      exact .inr ⟨[], lexeme, rest, state, expected, rfl, rfl, advanced, by rw [← failed]⟩
    | ok next =>
      simp only [advanced] at failed
      rcases restHypothesis failed with
        ⟨last, readRest, position⟩ | ⟨before, refused, after, reached, expected, rfl, readBefore, refuses, position⟩
      · exact .inl ⟨last, by rw [List.map_cons, read_of_advance advanced, readRest], position⟩
      · refine .inr ⟨lexeme :: before, refused, after, reached, expected, rfl, ?_, refuses, position⟩
        rw [List.map_cons, read_of_advance advanced, readBefore]

end Parser

theorem Term.parse_eq_error {text : String} {error : ParseError} (refused : Term.parse text = .error error) :
    ∃ expected, Parser.State.run text.length {} (Lexeme.scan text) = .error ⟨expected, error.position⟩ := by
  rw [Term.parse] at refused
  split at refused
  next empty =>
    cases refused
    exact ⟨.operand, by rw [empty]; rfl⟩
  next => exact ⟨error.expected, refused⟩

/-! ## Viable texts -/

namespace Term

/-- The characters can be continued to the text of a term. -/
def Viable (chars : List Char) : Prop := ∃ rest term, parse (String.ofList (chars ++ rest)) = .ok term

theorem Viable.of_append {chars more : List Char} (viable : Viable (chars ++ more)) : Viable chars := by
  obtain ⟨rest, term, parsed⟩ := viable
  exact ⟨more ++ rest, term, by rw [← List.append_assoc, parsed]⟩

end Term

namespace Parser

theorem tokenised_operand (depth : Nat) :
    Tokenised ('x' :: List.replicate depth ')') (.name "x" :: List.replicate depth .rightParen) := by
  have closing : Tokenised (List.replicate depth ')') (List.replicate depth .rightParen) := by
    induction depth with
    | zero => exact .nil
    | succ depth depthHypothesis => exact .symbol .rightParen depthHypothesis
  have ends : EndsName (List.replicate depth ')') := by
    intro next found
    cases depth with
    | zero => cases found
    | succ depth =>
      cases found
      decide
  exact @Tokenised.name 'x' [] _ _ (by decide) (by simp) ends closing

/-- Every state that the parser reaches can be completed: by a name and a dot where they are missing, by a variable,
and by the parentheses that are open. -/
theorem Reached.viable {tokens : List Token} {state : State} {chars : List Char} (reached : Reached tokens state)
    (tokenised : Tokenised chars tokens) : Term.Viable chars := by
  -- a blank keeps the continuation apart from a name at the end
  have continued {more : List Char} {row : List Token} {whole : Expr} (tokenisedMore : Tokenised more row)
      (derived : whole.tokens = tokens ++ row) : Term.Viable chars := by
    have ends : EndsName (' ' :: more) := by simp [EndsName]; decide
    have joined := tokenised.cutInto (' ' :: more) row ends (.blank (by decide) tokenisedMore)
    refine ⟨' ' :: more, whole.tree, Term.parse_eq_ok_iff_derived.2 ⟨whole, ?_, rfl⟩⟩
    rw [derived]
    exact Lexeme.tokenised_iff.1 (by simpa using joined)
  cases reached with
  | term pending =>
    obtain ⟨depth, whole, derived⟩ := pending.completed (.atom (.ident "x"))
    exact continued (tokenised_operand depth) derived
  | parameter pending =>
    obtain ⟨depth, whole, derived⟩ := pending.completed (.lambda "x" (.atom (.ident "x")))
    have binder := @Tokenised.name 'x' [] _ _ (by decide) (by simp) (by simp; decide)
      (.symbol .dot (tokenised_operand depth))
    exact continued binder (by rw [derived]; simp [Expr.tokens, Atom.tokens])
  | @dot _ _ _ param pending =>
    obtain ⟨depth, whole, derived⟩ := pending.completed (.lambda param (.atom (.ident "x")))
    exact continued (.symbol .dot (tokenised_operand depth)) (by rw [derived]; simp [Expr.tokens, Atom.tokens])

theorem not_viable_of_refused {before : List Token} {token : Token} {reached : State} {expected : Expected}
    {front : List Char} {c : Char} (accepted : State.read {} before = .ok reached)
    (refused : reached.advance token = .error expected) (starts : Lexeme.Starts c token)
    (joins : ∀ more row, Tokenised (c :: more) row → Tokenised (front ++ c :: more) (before ++ row)) :
    ¬ Term.Viable (front ++ [c]) := by
  rintro ⟨rest, term, parsed⟩
  obtain ⟨other, row, otherStarts, tokenised⟩ := starts.tokenised rest
  obtain ⟨_, otherRefused⟩ := State.refuses_alike starts otherStarts refused
  have cut : before ++ other :: row = Lexeme.tokens (String.ofList (front ++ [c] ++ rest)) :=
    Lexeme.tokenised_iff.1 (by simpa using joins rest _ tokenised)
  obtain ⟨last, readAll, -⟩ := Term.parse_eq_ok.1 parsed
  rw [← cut, State.read_of_read accepted, State.read_cons, otherRefused] at readAll
  cases readAll

end Parser

namespace Term

/-- The text is viable up to the position of the error, and if there is a character at that position, it is not viable
with it. -/
theorem viable_up_to_error {text : String} {error : ParseError} (refused : parse text = .error error) :
    (error.position = text.length ∧ Viable text.toList) ∨
      ∃ front c back, text.toList = front ++ c :: back ∧ error.position = front.length ∧ Viable front ∧
        ¬ Viable (front ++ [c]) := by
  obtain ⟨_, failed⟩ := parse_eq_error refused
  have start : Parser.Reached [] {} := .term .start
  rcases Parser.State.run_eq_error failed with
    ⟨last, readAll, position⟩ | ⟨before, lexeme, after, reached, expected, scanned, readBefore, refuses, position⟩
  · exact .inl ⟨position, (start.read readAll).viable (Lexeme.tokenised_scanFrom 0 text.toList)⟩
  · obtain ⟨front, c, back, cut⟩ := Lexeme.scanFrom_cut scanned
    refine .inr ⟨front, c, back, cut.whole, ?_, (start.read readBefore).viable cut.tokenised, ?_⟩
    · rw [position, cut.place, Nat.zero_add]
    · exact Parser.not_viable_of_refused readBefore refuses cut.starts cut.joins

/-- The position of an error is exact. It lies in the text or at its end; the text before it can be continued to the
text of a term; and no text of a term starts with what goes up to the character at the position. So the position is the
end exactly if the text is the start of the text of a term. -/
theorem error_position_is_exact {text : String} {error : ParseError} (refused : parse text = .error error) :
    error.position ≤ text.length ∧ Viable (text.toList.take error.position) ∧
    (error.position < text.length → ¬ Viable (text.toList.take (error.position + 1))) ∧
    (error.position = text.length ↔ Viable text.toList) := by
  rcases viable_up_to_error refused with ⟨atEnd, viable⟩ | ⟨front, c, back, chars, position, viable, dead⟩
  · rw [atEnd, ← String.length_toList, List.take_length]
    exact ⟨Nat.le_refl _, viable, fun inside => absurd inside (Nat.lt_irrefl _), fun _ => viable, fun _ => rfl⟩
  · have length : text.length = front.length + (back.length + 1) := by rw [← String.length_toList, chars]; simp
    have before : text.toList.take error.position = front := by rw [chars, position, List.take_left]
    have upTo : text.toList.take (error.position + 1) = front ++ [c] := by
      rw [chars, position, List.take_length_add_append]
      rfl
    rw [before, upTo]
    refine ⟨by omega, viable, fun _ => dead, ?_⟩
    constructor
    · omega
    · intro wholeViable
      have startsDead : text.toList = (front ++ [c]) ++ back := by rw [chars]; simp
      rw [startsDead] at wholeViable
      exact absurd wholeViable.of_append dead

theorem name_for_dot_is_located :
    parse "λx y.z" = .error ⟨.dot, 3⟩ ∧ Viable ['λ', 'x', ' '] ∧ ¬ Viable ['λ', 'x', ' ', 'y'] := by
  have refused : parse "λx y.z" = .error ⟨.dot, 3⟩ := by decide +kernel
  obtain ⟨-, viable, dead, -⟩ := error_position_is_exact refused
  exact ⟨refused, by simpa using viable, by simpa using dead (by decide)⟩

end Term

end BetaStepper
