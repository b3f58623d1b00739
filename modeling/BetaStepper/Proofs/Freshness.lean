import BetaStepper.Proofs.Names
import Mathlib.Data.Finset.Card
import Mathlib.Order.Bounds.Basic

/-! # The search for a fresh name

A name is tried, and if it is taken, the name with one more prime is tried next. Nothing in this search counts down:
it ends because the names it tries are all different, so that only as many of them can be taken as there are names to
avoid. `Search` says what a run does without presupposing that it ends. A run ends with the fewest primes that lead to a
free name, `search_iff`, and the function that is run, which crosses off the names it has tried, finds the same name. -/

namespace BetaStepper

/-- A search for a name that is not in `avoid` starts at the first name and ends with the second after the given number
of turns. -/
inductive Search (avoid : List String) : String → Nat → String → Prop where
  | free {name : String} (isFree : name ∉ avoid) : Search avoid name 0 name
  | taken {name result : String} {turns : Nat} (isTaken : name ∈ avoid)
      (rest : Search avoid (name ++ "'") turns result) : Search avoid name (turns + 1) result

/-- The numbers of primes that lead from `base` to a free name. -/
def freeCounts (base : String) (avoid : List String) : Set Nat := {count | primed base count ∉ avoid}

variable {base result : String} {avoid : List String} {count turns : Nat}

theorem isLeast_freeCounts_iff :
    IsLeast (freeCounts base avoid) count ↔
      primed base count ∉ avoid ∧ ∀ fewer < count, primed base fewer ∈ avoid := by
  refine and_congr_right fun _ => forall_congr' fun fewer => ?_
  rw [← not_imp_not, Nat.not_le]
  exact imp_congr_right fun _ => not_not

/-! ## Runs of the search -/

theorem Search.result_eq (search : Search avoid base turns result) : result = primed base turns := by
  induction search with
  | free => rw [primed_zero]
  | taken _ _ restHypothesis => rw [restHypothesis, primed_append_prime]

theorem Search.isLeast (search : Search avoid base turns result) : IsLeast (freeCounts base avoid) turns := by
  rw [isLeast_freeCounts_iff]
  induction search with
  | free isFree => simpa using isFree
  | taken isTaken _ restHypothesis =>
    obtain ⟨isFree, tried⟩ := restHypothesis
    rw [primed_append_prime] at isFree
    exact ⟨isFree, tried_succ_iff.2 ⟨isTaken, tried⟩⟩

theorem search_of_isLeast (least : IsLeast (freeCounts base avoid) count) :
    Search avoid base count (primed base count) := by
  rw [isLeast_freeCounts_iff] at least
  obtain ⟨isFree, tried⟩ := least
  induction count generalizing base with
  | zero =>
    rw [primed_zero] at isFree ⊢
    exact .free isFree
  | succ count countHypothesis =>
    obtain ⟨isTaken, triedRest⟩ := tried_succ_iff.1 tried
    rw [← primed_append_prime] at isFree ⊢
    exact .taken isTaken (countHypothesis isFree triedRest)

theorem search_iff :
    Search avoid base turns result ↔ IsLeast (freeCounts base avoid) turns ∧ result = primed base turns := by
  constructor
  · intro search
    exact ⟨search.isLeast, search.result_eq⟩
  · rintro ⟨least, rfl⟩
    exact search_of_isLeast least

/-! ## How long a search takes -/

theorem primed_injective (name : String) : Function.Injective (primed name) := by
  intro count other same
  have sameLength := congrArg String.length same
  rw [length_primed, length_primed] at sameLength
  exact Nat.add_left_cancel sameLength

/-- As many different names have been tried as primes have been added, and all of them are names to avoid. -/
theorem count_le_card_of_isLeast (least : IsLeast (freeCounts base avoid) count) :
    count ≤ avoid.toFinset.card := by
  have tried := (isLeast_freeCounts_iff.1 least).2
  have names : (Finset.range count).image (primed base) ⊆ avoid.toFinset := by
    intro name member
    obtain ⟨fewer, less, rfl⟩ := Finset.mem_image.1 member
    exact List.mem_toFinset.2 (tried fewer (Finset.mem_range.1 less))
  calc count = ((Finset.range count).image (primed base)).card := by
        rw [Finset.card_image_of_injective _ (primed_injective base), Finset.card_range]
    _ ≤ avoid.toFinset.card := Finset.card_le_card names

/-! ## The name that is found -/

theorem exists_isLeast_freshName (base : String) (avoid : List String) :
    ∃ count, IsLeast (freeCounts base avoid) count ∧ freshName base avoid = primed base count := by
  obtain ⟨count, same, tried⟩ := freshName_eq_primed base avoid
  have isFree := freshName_not_mem base avoid
  rw [same] at isFree
  exact ⟨count, isLeast_freeCounts_iff.2 ⟨isFree, tried⟩, same⟩

theorem freeCounts_congr {other : List String} (same : other.toFinset = avoid.toFinset) (base : String) :
    freeCounts base other = freeCounts base avoid := by
  ext count
  have members : primed base count ∈ other ↔ primed base count ∈ avoid := by
    rw [← List.mem_toFinset, same, List.mem_toFinset]
  exact not_congr members

/-- A fresh name is the base with the fewest primes that make it a name not to be avoided. The search for it ends on
every input, with this name and after one turn for each prime, of which there are at most as many as names to avoid.
Neither the order of these names nor repetitions matter. A name of the grammar gives a name of the grammar. -/
theorem fresh_name_has_fewest_primes (base : String) (avoid : List String) :
    ∃ count, freshName base avoid = primed base count ∧
      IsLeast (freeCounts base avoid) count ∧
      count ≤ avoid.toFinset.card ∧
      (∀ turns result, Search avoid base turns result ↔ turns = count ∧ result = freshName base avoid) ∧
      (∀ other : List String, other.toFinset = avoid.toFinset → freshName base other = freshName base avoid) ∧
      (Lexeme.isName base = true → Lexeme.isName (freshName base avoid) = true) := by
  obtain ⟨count, least, found⟩ := exists_isLeast_freshName base avoid
  refine ⟨count, found, least, count_le_card_of_isLeast least, ?_, ?_, ?_⟩
  · intro turns result
    rw [search_iff, found]
    constructor
    · rintro ⟨leastTurns, rfl⟩
      obtain rfl := leastTurns.unique least
      exact ⟨rfl, rfl⟩
    · rintro ⟨rfl, rfl⟩
      exact ⟨least, rfl⟩
  · intro other same
    obtain ⟨otherCount, otherLeast, otherFound⟩ := exists_isLeast_freshName base other
    rw [freeCounts_congr same] at otherLeast
    rw [otherFound, found, otherLeast.unique least]
  · intro valid
    exact primable_isName.freshName valid avoid

-- The search stops at a gap, also if names with more primes are taken.
example : freshName "x" ["x''", "y", "x"] = "x'" := by
  decide +kernel

end BetaStepper
