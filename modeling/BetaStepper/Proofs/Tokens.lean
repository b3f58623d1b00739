import BetaStepper.Term.Lexeme
import Mathlib.Data.List.DropRight

/-! # Tokens by longest match

`Tokenised` says by rules how a text is cut into tokens, without positions. The scanner follows it and it leaves no
choice, so a text has exactly one row of tokens. What follows a text makes no difference to its tokens as long as it
does not go on with a name (`Tokenised.cutInto`), and blanks at the ends make none at all. -/

namespace BetaStepper

/-- The characters that are tokens by themselves. -/
inductive Symbol : Char → Token → Prop where
  | leftParen : Symbol '(' .leftParen
  | rightParen : Symbol ')' .rightParen
  | dot : Symbol '.' .dot
  | lambda : Symbol 'λ' .lambda
  | backslash : Symbol '\\' .lambda

open Lexeme (isNameStart isNameChar)
open Text (isBlank)

inductive Tokenised : List Char → List Token → Prop where
  | nil : Tokenised [] []
  | blank {c : Char} {chars : List Char} {tokens : List Token} :
      isBlank c = true → Tokenised chars tokens → Tokenised (c :: chars) tokens
  | symbol {c : Char} {token : Token} {chars : List Char} {tokens : List Token} :
      Symbol c token → Tokenised chars tokens → Tokenised (c :: chars) (token :: tokens)
  /-- A name ends where no character goes on with it. -/
  | name {c : Char} {tail chars : List Char} {tokens : List Token} :
      isNameStart c = true → (∀ other ∈ tail, isNameChar other = true) →
      (∀ next ∈ chars.head?, isNameChar next = false) → Tokenised chars tokens →
      Tokenised (c :: (tail ++ chars)) (.name (String.ofList (c :: tail)) :: tokens)
  | stray {c : Char} {chars : List Char} {tokens : List Token} :
      isBlank c = false → isNameStart c = false → (∀ token, ¬ Symbol c token) → Tokenised chars tokens →
      Tokenised (c :: chars) (.stray c :: tokens)

/-! ## Texts in front of others -/

/-- What comes next is not part of a name. -/
def EndsName (rest : List Char) : Prop := ∀ next ∈ rest.head?, isNameChar next = false

/-- The characters are cut into the tokens, whatever comes after them as long as it ends a name. -/
def CutInto (chars : List Char) (tokens : List Token) : Prop :=
  ∀ rest row, EndsName rest → Tokenised rest row → Tokenised (chars ++ rest) (tokens ++ row)

theorem Tokenised.cutInto {chars : List Char} {tokens : List Token} (tokenised : Tokenised chars tokens) :
    CutInto chars tokens := by
  intro rest row ends tokenisedRest
  induction tokenised with
  | nil => exact tokenisedRest
  | blank isBlank _ restHypothesis => exact .blank isBlank restHypothesis
  | symbol known _ restHypothesis => exact .symbol known restHypothesis
  | @name c tail chars tokens starts named endsHere _ restHypothesis =>
    rw [List.cons_append, List.append_assoc]
    refine .name starts named ?_ restHypothesis
    -- the name ends inside the characters, or with them
    cases chars with
    | nil => exact ends
    | cons => exact endsHere
  | stray notBlank notName unknown _ restHypothesis => exact .stray notBlank notName unknown restHypothesis

namespace Lexeme

/-! ## Characters -/

theorem bound_of_isAlpha {c : Char} (letter : c.isAlpha = true) : 0x41 ≤ c.toNat ∧ c.toNat ≤ 0x7A := by
  rcases Bool.or_eq_true_iff.1 letter with upper | lower
  · obtain ⟨low, high⟩ : 'A'.val ≤ c.val ∧ c.val ≤ 'Z'.val := of_decide_eq_true upper
    rw [UInt32.le_iff_toNat_le] at low high
    exact ⟨low, high.trans (by decide)⟩
  · obtain ⟨low, high⟩ := Bool.and_eq_true_iff.1 lower
    rw [decide_eq_true_eq, ge_iff_le, UInt32.le_iff_toNat_le] at low
    rw [decide_eq_true_eq, UInt32.le_iff_toNat_le] at high
    exact ⟨Nat.le_trans (by decide) low, high⟩

theorem bound_of_isNameChar {c : Char} (named : isNameChar c = true) : 0x27 ≤ c.toNat ∧ c.toNat ≤ 0x7A := by
  simp only [isNameChar, Char.isAlphanum, Bool.or_eq_true, beq_iff_eq] at named
  rcases named with ((letter | digit) | rfl) | rfl
  · obtain ⟨low, high⟩ := bound_of_isAlpha letter
    omega
  · obtain ⟨low, high⟩ := Char.isDigit_iff_toNat.1 digit
    exact ⟨Nat.le_trans (by decide) low, high.trans (by decide)⟩
  · decide
  · decide

theorem not_isBlank_of_isNameChar {c : Char} (named : isNameChar c = true) : isBlank c = false := by
  obtain ⟨low, high⟩ := bound_of_isNameChar named
  simp only [isBlank, Bool.or_eq_false_iff, Bool.and_eq_false_iff, decide_eq_false_iff_not, beq_eq_false_iff_ne]
  omega

theorem not_isBlank_of_isNameStart {c : Char} (starts : isNameStart c = true) : isBlank c = false := by
  apply not_isBlank_of_isNameChar
  rw [isNameStart] at starts
  rw [isNameChar, Char.isAlphanum, starts]
  rfl

theorem symbol_spec {c : Char} {token : Token} (spec : Symbol c token) :
    isBlank c = false ∧ isNameStart c = false ∧ symbol c = token := by
  cases spec <;> decide

/-- A character is a symbol or becomes a stray token. -/
theorem symbol_cases (c : Char) : Symbol c (symbol c) ∨ symbol c = .stray c ∧ ∀ token, ¬ Symbol c token := by
  by_cases known : c = '(' ∨ c = ')' ∨ c = '.' ∨ c = 'λ' ∨ c = '\\'
  · left
    rcases known with rfl | rfl | rfl | rfl | rfl
    · exact .leftParen
    · exact .rightParen
    · exact .dot
    · exact .lambda
    · exact .backslash
  · right
    simp only [not_or] at known
    obtain ⟨left, right, dot, lambda, backslash⟩ := known
    refine ⟨by simp [symbol, left, right, dot, lambda, backslash], ?_⟩
    rintro token (_ | _ | _ | _ | _) <;> contradiction

/-- A character that is neither blank nor starts a name is a token by itself. -/
theorem tokenised_symbol_cons {c : Char} {chars : List Char} {tokens : List Token} (notBlank : isBlank c = false)
    (notName : isNameStart c = false) (tokenised : Tokenised chars tokens) :
    Tokenised (c :: chars) (symbol c :: tokens) := by
  rcases symbol_cases c with known | ⟨same, unknown⟩
  · exact .symbol known tokenised
  · rw [same]
    exact .stray notBlank notName unknown tokenised

/-! ## The scanner -/

def tokens (text : String) : List Token := (scan text).map (·.token)

theorem scanFrom_nil (position : Nat) : scanFrom position [] = [] := by
  unfold scanFrom
  rfl

theorem scanFrom_cons (position : Nat) (c : Char) (rest : List Char) :
    scanFrom position (c :: rest) =
      if isBlank c then scanFrom (position + 1) rest
      else if isNameStart c then
        ⟨.name (String.ofList (c :: rest.takeWhile isNameChar)), position⟩ ::
          scanFrom (position + 1 + (rest.takeWhile isNameChar).length) (rest.dropWhile isNameChar)
      else ⟨symbol c, position⟩ :: scanFrom (position + 1) rest := by
  rw [scanFrom.eq_def]

theorem scanFrom_eq_of_tokenised {chars : List Char} {tokens : List Token} (tokenised : Tokenised chars tokens)
    (position : Nat) : (scanFrom position chars).map (·.token) = tokens := by
  induction tokenised generalizing position with
  | nil => rw [scanFrom_nil]; rfl
  | blank isBlank _ restHypothesis => rw [scanFrom_cons, if_pos isBlank, restHypothesis]
  | symbol spec _ restHypothesis =>
    obtain ⟨notBlank, notName, same⟩ := symbol_spec spec
    rw [scanFrom_cons, if_neg (by simp [notBlank]), if_neg (by simp [notName]), List.map_cons, restHypothesis, same]
  | @name c tail chars tokens starts named ends _ restHypothesis =>
    -- the scanner takes all of `tail` and stops there, since what comes next goes on with no name
    have taken : (tail ++ chars).takeWhile isNameChar = tail := by
      rw [List.takeWhile_append_of_pos named]
      cases chars with
      | nil => simp
      | cons next rest => simp [ends next rfl]
    have dropped : (tail ++ chars).dropWhile isNameChar = chars := by
      rw [List.dropWhile_append_of_pos named]
      cases chars with
      | nil => rfl
      | cons next rest => simp [ends next rfl]
    rw [scanFrom_cons, if_neg (by simp [not_isBlank_of_isNameStart starts]), if_pos starts]
    rw [List.map_cons, taken, dropped, restHypothesis]
  | stray notBlank notName unknown _ restHypothesis =>
    rename_i c _ _ _
    have same : symbol c = .stray c := by
      rcases symbol_cases c with known | ⟨same, _⟩
      · exact absurd known (unknown _)
      · exact same
    rw [scanFrom_cons, if_neg (by simp [notBlank]), if_neg (by simp [notName]), List.map_cons, restHypothesis, same]

theorem tokenised_scanFrom (position : Nat) (chars : List Char) :
    Tokenised chars ((scanFrom position chars).map (·.token)) := by
  fun_induction scanFrom position chars with
  | case1 => exact .nil
  | case2 _ c rest isBlank restHypothesis => exact .blank isBlank restHypothesis
  | case3 _ c rest notBlank starts tail restHypothesis =>
    have joined : c :: rest = c :: (tail ++ rest.dropWhile isNameChar) := by
      rw [List.takeWhile_append_dropWhile]
    rw [List.map_cons, joined]
    refine .name starts ?_ ?_ restHypothesis
    · intro other member
      exact List.all_eq_true.1 List.all_takeWhile other member
    · intro next found
      have stopped := List.head?_dropWhile_not isNameChar rest
      rw [Option.mem_def] at found
      rwa [found] at stopped
  | case4 _ c rest notBlank notName restHypothesis =>
    exact tokenised_symbol_cons (by simpa using notBlank) (by simpa using notName) restHypothesis

/-- A text has exactly one row of tokens by longest match, the one that the scanner finds. -/
theorem tokenised_iff {text : String} {row : List Token} : Tokenised text.toList row ↔ row = tokens text := by
  constructor
  · intro tokenised
    exact (scanFrom_eq_of_tokenised tokenised 0).symm
  · rintro rfl
    exact tokenised_scanFrom 0 text.toList

/-! ## Blanks at the ends -/

theorem tokenised_blanks_append {blanks chars : List Char} {row : List Token}
    (allBlank : ∀ c ∈ blanks, isBlank c = true) (tokenised : Tokenised chars row) :
    Tokenised (blanks ++ chars) row := by
  induction blanks with
  | nil => exact tokenised
  | cons c blanks blanksHypothesis =>
    exact .blank (allBlank c (by simp)) (blanksHypothesis fun other member => allBlank other (by simp [member]))

theorem tokenised_append_blanks {chars blanks : List Char} {row : List Token} (tokenised : Tokenised chars row)
    (allBlank : ∀ c ∈ blanks, isBlank c = true) : Tokenised (chars ++ blanks) row := by
  have noTokens : Tokenised blanks [] := by simpa using tokenised_blanks_append allBlank .nil
  have ends : EndsName blanks := by
    intro next found
    have blankNext : isBlank next = true := allBlank next (List.mem_of_mem_head? found)
    cases goesOn : isNameChar next with
    | false => rfl
    | true => rw [not_isBlank_of_isNameChar goesOn] at blankNext; cases blankNext
  simpa using tokenised.cutInto blanks [] ends noTokens

/-- A text is its stripped text between blanks. -/
theorem stripChars_between (chars : List Char) :
    ∃ front back, (∀ c ∈ front, isBlank c = true) ∧ (∀ c ∈ back, isBlank c = true) ∧
      chars = front ++ (Text.stripChars chars ++ back) := by
  refine ⟨chars.takeWhile isBlank, ((chars.dropWhile isBlank).reverse.takeWhile isBlank).reverse, ?_, ?_, ?_⟩
  · exact List.all_eq_true.1 List.all_takeWhile
  · intro c member
    exact List.all_eq_true.1 List.all_takeWhile c (List.mem_reverse.1 member)
  · rw [Text.stripChars, ← List.reverse_append, List.takeWhile_append_dropWhile, List.reverse_reverse,
      List.takeWhile_append_dropWhile]

theorem tokens_strip (text : String) : tokens (Text.strip text) = tokens text := by
  obtain ⟨front, back, frontBlank, backBlank, whole⟩ := stripChars_between text.toList
  have stripped : Tokenised (Text.stripChars text.toList) (tokens (Text.strip text)) := by
    simpa [Text.strip] using tokenised_iff.2 (rfl : tokens (Text.strip text) = _)
  apply tokenised_iff.1
  rw [whole]
  exact tokenised_blanks_append frontBlank (tokenised_append_blanks stripped backBlank)

end Lexeme

namespace Text

theorem stripChars_stripChars (chars : List Char) : stripChars (stripChars chars) = stripChars chars := by
  have kept : (stripChars chars).dropWhile isBlank = stripChars chars := by
    cases stripped : stripChars chars with
    | nil => rfl
    | cons first rest =>
      obtain ⟨back, whole⟩ : stripChars chars <+: chars.dropWhile isBlank := List.rdropWhile_prefix isBlank _
      have stopped := List.head?_dropWhile_not isBlank chars
      rw [← whole, stripped] at stopped
      simpa using stopped
  calc stripChars (stripChars chars)
      = (stripChars chars).rdropWhile isBlank := by rw [stripChars, kept, List.rdropWhile]
    _ = stripChars chars := List.rdropWhile_idempotent isBlank (chars.dropWhile isBlank)

theorem strip_strip (text : String) : strip (strip text) = strip text := by
  rw [strip, strip, String.toList_ofList, stripChars_stripChars]

end Text

end BetaStepper
