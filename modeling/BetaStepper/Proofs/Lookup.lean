import BetaStepper.Proofs.Limits

/-! # The redex that a label names

Labels need not come from a numbering: they may be missing, stale, repeated, or stand on applications that are no
redexes. A label then names the first redex in pre-order that carries it, and looking it up, listing the redexes and
contracting all go by that. What contraction does to the rest of the term is said by `Replaced`, node by node: nothing
changes beside the redex, and the nodes above it keep all that they record. -/

namespace BetaStepper.Term

/-! ## Replacing one node -/

/-- The two nodes record the same and differ at most in what lies below them. -/
inductive SameNode : Term → Term → Prop where
  | lam (param : String) (body newBody : Term) (origin : Provenance) :
      SameNode (lam param body origin) (lam param newBody origin)
  | app (func arg newFunc newArg : Term) (label : Option Int) (origin : Provenance) :
      SameNode (app func arg label origin) (app newFunc newArg label origin)

/-- `result` is `term` with `new` in the place of `old` at the end of the path. -/
structure Replaced (path : Path) (old new term result : Term) : Prop where
  old_at : term.at? path = some old
  new_at : result.at? path = some new
  beside : ∀ other, ¬ other <+: path → ¬ path <+: other → result.at? other = term.at? other
  above : ∀ other, other <+: path → other ≠ path →
    ∃ node newNode, term.at? other = some node ∧ result.at? other = some newNode ∧ SameNode node newNode

theorem at?_replaceAt {term old : Term} {path : Path} (valid : term.at? path = some old) (node : Term) :
    (term.replaceAt path node).at? path = some node := by
  induction leads_of_at? valid with
  | here => rw [replaceAt_nil, at?_nil]
  | body _ bodyHypothesis => exact bodyHypothesis valid
  | func _ funcHypothesis => exact funcHypothesis valid
  | arg _ argHypothesis => exact argHypothesis valid

theorem at?_replaceAt_beside {path other : Path} (notAbove : ¬ other <+: path) (notBelow : ¬ path <+: other)
    (term node : Term) : (term.replaceAt path node).at? other = term.at? other := by
  induction path generalizing term other with
  | nil => exact absurd List.nil_prefix notBelow
  | cons turn path pathHypothesis =>
    cases other with
    | nil => exact absurd List.nil_prefix notAbove
    | cons otherTurn other =>
      by_cases same : turn = otherTurn
      · -- the paths part further down
        subst same
        rw [List.cons_prefix_cons, not_and] at notAbove notBelow
        have parted := pathHypothesis (notAbove rfl) (notBelow rfl)
        cases term <;> cases turn <;> first | rfl | exact parted _
      · cases term <;> cases turn <;> cases otherTurn <;> first | rfl | contradiction

theorem sameNode_replaceAt {term old : Term} {path other : Path} (valid : term.at? path = some old)
    (prefixed : other <+: path) (apart : other ≠ path) (new : Term) :
    ∃ node newNode, term.at? other = some node ∧ (term.replaceAt path new).at? other = some newNode ∧
      SameNode node newNode := by
  induction leads_of_at? valid generalizing other with
  | here => exact absurd (List.prefix_nil.1 prefixed) apart
  | body _ bodyHypothesis =>
    cases other with
    | nil => exact ⟨_, _, rfl, rfl, .lam _ _ _ _⟩
    | cons turn other =>
      obtain ⟨rfl, prefixedRest⟩ := List.cons_prefix_cons.1 prefixed
      exact bodyHypothesis valid prefixedRest (by simpa using apart)
  | func _ funcHypothesis =>
    cases other with
    | nil => exact ⟨_, _, rfl, rfl, .app _ _ _ _ _ _⟩
    | cons turn other =>
      obtain ⟨rfl, prefixedRest⟩ := List.cons_prefix_cons.1 prefixed
      exact funcHypothesis valid prefixedRest (by simpa using apart)
  | arg _ argHypothesis =>
    cases other with
    | nil => exact ⟨_, _, rfl, rfl, .app _ _ _ _ _ _⟩
    | cons turn other =>
      obtain ⟨rfl, prefixedRest⟩ := List.cons_prefix_cons.1 prefixed
      exact argHypothesis valid prefixedRest (by simpa using apart)

theorem replaced_replaceAt {term old : Term} {path : Path} (valid : term.at? path = some old) (new : Term) :
    Replaced path old new term (term.replaceAt path new) where
  old_at := valid
  new_at := at?_replaceAt valid new
  beside := fun _ notAbove notBelow => at?_replaceAt_beside notAbove notBelow term new
  above := fun _ prefixed apart => sameNode_replaceAt valid prefixed apart new

/-! ## Looking up by label -/

theorem redexLabelled?_eq_find? (label : Option Int) (term : Term) :
    term.redexLabelled? label = term.redexes.find? (·.label = label) := by
  rw [redexLabelled?_eq, labelledPlace?, ← map_redex_redexPlaces, List.find?_map]
  rfl

theorem contract?_eq_none_iff (label : Option Int) (term : Term) :
    term.contract? label = none ↔ term.redexLabelled? label = none := by
  rw [contract?_eq, redexLabelled?_eq, Option.map_eq_none_iff, Option.map_eq_none_iff]

/-- A label that is found belongs to the first place that carries it, and contraction replaces the redex there. -/
theorem first_place_of_redexLabelled? {label : Option Int} {term : Term} {redex : Redex}
    (found : term.redexLabelled? label = some redex) :
    ∃ place before after, place.redex = redex ∧ term.redexPlaces = before ++ place :: after ∧
      (∀ earlier ∈ before, earlier.redex.label ≠ label) ∧
      Replaced place.path redex.term (redex.contractum label) term (term.reduceAt label) := by
  rw [redexLabelled?_eq, Option.map_eq_some_iff] at found
  obtain ⟨place, labelled, rfl⟩ := found
  obtain ⟨_, before, after, places, skipped⟩ := List.find?_eq_some_iff_append.1 labelled
  have redexAt := at?_of_mem_redexPlaces (List.mem_of_find?_eq_some labelled)
  refine ⟨place, before, after, rfl, places, ?_, ?_⟩
  · intro earlier member
    simpa [Place.carries] using skipped earlier member
  · rw [reduceAt, contract?_eq, labelled]
    exact replaced_replaceAt redexAt _

/-- Whatever the labels of a term are, a label names the first redex in the list of redexes that carries it.
Contraction finds nothing, and leaves the term alone, exactly if there is none. Otherwise it puts the contractum in the
place of that redex, with the copies of the argument marked as coming from the label, and changes nothing else. -/
theorem label_names_first_redex (term : Term) (label : Option Int) :
    term.redexLabelled? label = term.redexes.find? (·.label = label) ∧
    (term.contract? label = none ↔ term.redexLabelled? label = none) ∧
    (term.redexLabelled? label = none → term.reduceAt label = term) ∧
    term.redexPlaces.map Place.redex = term.redexes ∧
    (∀ redex, term.redexLabelled? label = some redex →
      ∃ place before after, place.redex = redex ∧ term.redexPlaces = before ++ place :: after ∧
        (∀ earlier ∈ before, earlier.redex.label ≠ label) ∧
        Replaced place.path redex.term (redex.body.substitute redex.param redex.arg true label) term
          (term.reduceAt label)) ∧
    (term.complete = true → 2 * term.nesting ≤ nestingLimit →
      Guarded.redexes term = .ok term.redexes ∧
      Guarded.redexLabelled? label term = .ok (term.redexLabelled? label) ∧
      Guarded.reduceAt term label = .ok (term.reduceAt label)) := by
  refine ⟨redexLabelled?_eq_find? label term, contract?_eq_none_iff label term, ?_, map_redex_redexPlaces term, ?_, ?_⟩
  · intro missing
    rw [reduceAt, (contract?_eq_none_iff label term).2 missing, Option.getD_none]
  · intro redex found
    exact first_place_of_redexLabelled? found
  · intro complete shallow
    exact Guarded.redex_operations_of_shallow complete shallow label

-- A redex can contract to itself, label and marks included, so an equal result does not tell that nothing was found.
example :
    let origin : Provenance := ⟨true, some 1⟩
    let copy : Term := lam "x" (app (var "x" origin) (var "x" origin) (some 1) origin) origin
    let loop : Term := app copy copy (some 1) origin
    (loop.contract? (some 1)).isSome = true ∧ loop.reduceAt (some 1) = loop := by
  decide +kernel

end BetaStepper.Term
