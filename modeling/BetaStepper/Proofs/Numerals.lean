import BetaStepper.Text.Basic

/-! # Numerals of digits alone

A text that is nothing but digits is always a numeral, and the only thing that can be wrong with it is its length. The
digits are those of many scripts, so what is needed of them is checked once over the whole table, in
`forall_of_isDigit`. -/

namespace BetaStepper.Text

/-- What the ten digits of every script have in common, all digits have. -/
theorem forall_of_isDigit (property : Char → Bool)
    (checked : (digitZeros.all fun first => (List.range 10).all fun offset => property (Char.ofNat (first + offset))))
    {c : Char} (digit : isDigit c = true) : property c = true := by
  obtain ⟨value, found⟩ := Option.isSome_iff_exists.1 digit
  obtain ⟨first, member, matched⟩ := List.exists_of_findSome?_eq_some found
  split at matched
  next range =>
    have inScript := List.all_eq_true.1 (List.all_eq_true.1 checked first member) (c.toNat - first)
      (List.mem_range.2 (by omega))
    rwa [Nat.add_sub_cancel' range.1, Char.ofNat_toNat] at inScript
  next => cases matched

/-- A digit is none of the characters that mean something else in a numeral. -/
theorem isDigit_apart {c : Char} (digit : isDigit c = true) :
    isBlank c = false ∧ c ≠ '+' ∧ c ≠ '-' ∧ c ≠ '_' := by
  have apart : (!isBlank c && c != '+' && c != '-' && c != '_') = true :=
    forall_of_isDigit (fun c => !isBlank c && c != '+' && c != '-' && c != '_') (by decide +kernel) digit
  simpa [and_assoc] using apart

theorem stripChars_of_ends {chars : List Char} (starts : ∀ c ∈ chars.head?, isBlank c = false)
    (ends : ∀ c ∈ chars.getLast?, isBlank c = false) : stripChars chars = chars := by
  have kept {list : List Char} (starts : ∀ c ∈ list.head?, isBlank c = false) : list.dropWhile isBlank = list := by
    cases list with
    | nil => rfl
    | cons c rest => simp [starts c rfl]
  rw [stripChars, kept starts, kept (by simpa using ends), List.reverse_reverse]

theorem stripChars_of_isDigit {chars : List Char} (digits : ∀ c ∈ chars, isDigit c = true) :
    stripChars chars = chars := by
  apply stripChars_of_ends
  · intro c first
    exact (isDigit_apart (digits c (List.mem_of_mem_head? first))).1
  · intro c last
    exact (isDigit_apart (digits c (List.mem_of_getLast? last))).1

namespace Numeral

theorem digits?_of_isDigit {chars : List Char} (nonempty : chars ≠ []) (digits : ∀ c ∈ chars, isDigit c = true) :
    ∃ values, digits? chars = some values ∧ values.length = chars.length := by
  induction chars with
  | nil => contradiction
  | cons c rest restHypothesis =>
    obtain ⟨value, found⟩ := Option.isSome_iff_exists.1 (digits c List.mem_cons_self)
    cases rest with
    | nil => exact ⟨[value], by rw [digits?, found]; rfl, rfl⟩
    | cons next rest =>
      -- an underscore would be passed over, but it is no digit
      have apart : next ≠ '_' := (isDigit_apart (digits next (by simp))).2.2.2
      obtain ⟨values, foundRest, sameLength⟩ :=
        restHypothesis (by simp) fun other member => digits other (List.mem_cons_of_mem c member)
      exact ⟨value :: values, by simp [digits?, found, foundRest], by simp [sameLength]⟩

theorem read_of_isDigit {text : String} (digits : ∀ c ∈ text.toList, isDigit c = true) :
    read text = (readUnsigned text.toList).map Int.ofNat := by
  rw [read, stripChars_of_isDigit digits]
  split
  next rest signed => exact absurd rfl (isDigit_apart (digits '+' (by simp [signed]))).2.1
  next rest signed => exact absurd rfl (isDigit_apart (digits '-' (by simp [signed]))).2.2.1
  next => rfl

/-- A text of digits denotes a number unless it is too long. -/
theorem read_of_isDecimal {text : String} (decimal : isDecimal text = true) :
    digitLimit < text.length ∧ read text = .error (.tooLong text.length) ∨
      text.length ≤ digitLimit ∧ ∃ value : Nat, read text = .ok (value : Int) := by
  rw [isDecimal, Bool.and_eq_true, List.all_eq_true] at decimal
  obtain ⟨nonempty, digits⟩ := decimal
  obtain ⟨values, found, sameLength⟩ := digits?_of_isDigit (by simpa using nonempty) digits
  rw [String.length_toList] at sameLength
  rw [read_of_isDigit digits, readUnsigned, found]
  simp only [sameLength, gt_iff_lt]
  split
  next tooLong => exact .inl ⟨tooLong, rfl⟩
  next short => exact .inr ⟨Nat.le_of_not_lt short, value values, rfl⟩

end Numeral

end BetaStepper.Text
