import BetaStepper.Proofs.Places

/-! # Numbering

Numbering gives the redexes the labels 1, 2, … in pre-order, whatever labels the term had before. So in a numbered
term the redex with a label stands at the position that the label says, `labelledPlace?_of_numbered`, and the labels
that name no redex are those beyond the number of redexes. -/

namespace BetaStepper.Term

/-! ## How many redexes there are -/

theorem map_label_redexHere? (func arg : Term) (label : Option Int) (origin : Provenance) :
    (app func arg label origin).redexHere?.toList.map Redex.label = if func.isAbstraction then [label] else [] := by
  cases func <;> rfl

theorem redexCount_lam (param : String) (body : Term) (origin : Provenance) :
    (lam param body origin).redexCount = body.redexCount := rfl

theorem redexCount_app (func arg : Term) (label : Option Int) (origin : Provenance) :
    (app func arg label origin).redexCount =
      (if func.isAbstraction then 1 else 0) + (func.redexCount + arg.redexCount) := by
  have here := congrArg List.length (map_label_redexHere? func arg label origin)
  rw [List.length_map] at here
  rw [redexCount, redexes, List.length_append, List.length_append, here]
  split <;> rfl

theorem redexCount_bare (term : Term) : term.bare.redexCount = term.redexCount := by
  induction term with
  | var | hole => rfl
  | lam _ _ _ bodyHypothesis => simpa only [bare, redexCount_lam] using bodyHypothesis
  | app _ _ _ _ funcHypothesis argHypothesis =>
    simp only [bare, redexCount_app, isAbstraction_bare, funcHypothesis, argHypothesis]

theorem redexCount_eq_of_bare_eq {term other : Term} (same : term.bare = other.bare) :
    term.redexCount = other.redexCount := by
  rw [← redexCount_bare term, same, redexCount_bare]

/-! ## The labels that numbering gives -/

@[simp] theorem isAbstraction_numberFrom (next : Nat) (term : Term) :
    (term.numberFrom next).1.isAbstraction = term.isAbstraction := by
  cases term <;> rfl

theorem numberFrom_snd (next : Nat) (term : Term) : (term.numberFrom next).2 = next + term.redexCount := by
  induction term generalizing next with
  | var | hole => rfl
  | lam _ _ _ bodyHypothesis => exact bodyHypothesis next
  | app func arg _ _ funcHypothesis argHypothesis =>
    simp only [numberFrom, redexCount_app, argHypothesis, funcHypothesis]
    split <;> omega

/-- The labels of `count` redexes that are numbered from `next` on. -/
def labelsFrom (next count : Nat) : List (Option Int) :=
  (List.range' next count).map fun (label : Nat) => some (label : Int)

theorem labelsFrom_succ (next count : Nat) :
    labelsFrom next (count + 1) = some (next : Int) :: labelsFrom (next + 1) count := by
  simp [labelsFrom, List.range'_succ]

theorem labelsFrom_append (next count more : Nat) :
    labelsFrom next count ++ labelsFrom (next + count) more = labelsFrom next (count + more) := by
  simp only [labelsFrom, ← List.map_append, List.range'_append_1]

theorem labels_numberFrom (next : Nat) (term : Term) :
    (term.numberFrom next).1.redexes.map Redex.label = labelsFrom next term.redexCount := by
  induction term generalizing next with
  | var | hole => rfl
  | lam _ _ _ bodyHypothesis => exact bodyHypothesis next
  | app func arg _ _ funcHypothesis argHypothesis =>
    simp only [numberFrom, redexes, List.map_append, map_label_redexHere?, funcHypothesis, argHypothesis,
      numberFrom_snd, labelsFrom_append, redexCount_app, isAbstraction_numberFrom]
    -- an application that is a redex takes the first label before its function and its argument do
    split
    · rw [Nat.add_comm 1, labelsFrom_succ, List.singleton_append]
    · rw [Nat.zero_add, List.nil_append]

/-- Old labels do not matter. -/
theorem numberFrom_numberFrom (first next : Nat) (term : Term) :
    (term.numberFrom first).1.numberFrom next = term.numberFrom next := by
  induction term generalizing first next with
  | var | hole => rfl
  | lam _ _ _ bodyHypothesis => simp only [numberFrom, bodyHypothesis]
  | app _ _ _ _ funcHypothesis argHypothesis =>
    simp only [numberFrom, isAbstraction_numberFrom, funcHypothesis, argHypothesis]

theorem number_number (term : Term) : term.number.number = term.number :=
  congrArg Prod.fst (numberFrom_numberFrom 1 1 term)

/-! ## Finding a redex by its label -/

/-- In places that are labelled consecutively the label gives the position. -/
theorem find?_carries {places : List Place} {next : Nat}
    (labelled : places.map (·.redex.label) = labelsFrom next places.length) (label : Int) :
    places.find? (Place.carries (some label)) =
      if (next : Int) ≤ label then places[(label - next).toNat]? else none := by
  induction places generalizing next with
  | nil => simp
  | cons place places placesHypothesis =>
    rw [List.length_cons, labelsFrom_succ, List.map_cons, List.cons.injEq] at labelled
    obtain ⟨own, labelledRest⟩ := labelled
    -- the first place carries `next`, so any other label is looked for among the rest, which start at `next + 1`
    by_cases here : label = next
    · subst here
      simp [Place.carries, own]
    · have skipped : Place.carries (some label) place = false := by simp [Place.carries, own, Ne.symm here]
      rw [List.find?_cons_of_neg (by simp [skipped]), placesHypothesis labelledRest]
      by_cases later : (next : Int) ≤ label
      · have position : (label - next).toNat = (label - (next + 1 : Nat)).toNat + 1 := by omega
        have beyond : ((next + 1 : Nat) : Int) ≤ label := by omega
        rw [if_pos later, if_pos beyond, position, List.getElem?_cons_succ]
      · have beyond : ¬ ((next + 1 : Nat) : Int) ≤ label := by omega
        rw [if_neg later, if_neg beyond]

theorem labelledPlace?_of_numbered {term : Term} (numbered : term.number = term) (label : Int) :
    term.labelledPlace? (some label) = if 1 ≤ label then term.redexPlaces[(label - 1).toNat]? else none := by
  have labelled : term.redexPlaces.map (·.redex.label) = labelsFrom 1 term.redexPlaces.length := by
    have labels := labels_numberFrom 1 term
    rw [← number, numbered, ← map_redex_redexPlaces, List.map_map] at labels
    rwa [length_redexPlaces]
  exact find?_carries labelled label

/-- In a numbered term the label of a redex leads to the redex that it counts. -/
theorem labelledPlace?_of_inRange {term : Term} (numbered : term.number = term) {label : Int} (low : 1 ≤ label)
    (high : label ≤ term.redexCount) :
    ∃ place, term.redexPlaces[(label - 1).toNat]? = some place ∧ term.labelledPlace? (some label) = some place := by
  have bound : (label - 1).toNat < term.redexPlaces.length := by
    rw [length_redexPlaces]
    omega
  refine ⟨term.redexPlaces[(label - 1).toNat], List.getElem?_eq_getElem bound, ?_⟩
  rw [labelledPlace?_of_numbered numbered, if_pos low, List.getElem?_eq_getElem bound]

theorem labelledPlace?_of_outOfRange {term : Term} (numbered : term.number = term) {label : Int}
    (outside : ¬ (1 ≤ label ∧ label ≤ term.redexCount)) : term.labelledPlace? (some label) = none := by
  rw [labelledPlace?_of_numbered numbered]
  split
  · rw [List.getElem?_eq_none_iff, length_redexPlaces]
    omega
  · rfl

/-! ## Steps -/

theorem number_prepared (term : Term) : term.prepared.number = term.prepared := number_number _

theorem redexCount_prepared (term : Term) : term.prepared.redexCount = term.redexCount :=
  redexCount_eq_of_bare_eq (bare_prepared term)

theorem number_step (term : Term) (label : Option Int) : (term.step label).number = term.step label :=
  number_number _

/-- A step whose label is in range contracts the redex that the label counts. -/
theorem step_of_inRange {term : Term} {label : Int} (low : 1 ≤ label) (high : label ≤ term.redexCount) :
    ∃ place, term.prepared.redexPlaces[(label - 1).toNat]? = some place ∧
      term.prepared.contract? (some label) =
        some (term.prepared.replaceAt place.path (place.redex.contractum (some label))) ∧
      term.step (some label) =
        (term.prepared.replaceAt place.path (place.redex.contractum (some label))).number := by
  obtain ⟨place, position, found⟩ :=
    labelledPlace?_of_inRange (number_prepared term) low (by rwa [redexCount_prepared])
  have contracted : term.prepared.contract? (some label) =
      some (term.prepared.replaceAt place.path (place.redex.contractum (some label))) := by
    rw [contract?_eq, found, Option.map_some]
  refine ⟨place, position, contracted, ?_⟩
  rw [step, reduceAt, contracted, Option.getD_some]

theorem step_of_outOfRange {term : Term} {label : Int} (outside : ¬ (1 ≤ label ∧ label ≤ term.redexCount)) :
    term.step (some label) = term.prepared := by
  have missing : term.prepared.labelledPlace? (some label) = none :=
    labelledPlace?_of_outOfRange (number_prepared term) (by rwa [redexCount_prepared])
  rw [step, reduceAt, contract?_eq, missing, Option.map_none, Option.getD_none, number_prepared]

end BetaStepper.Term
