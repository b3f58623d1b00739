import BetaStepper.Proofs.Limits

/-! # What numbering does to a term

Numbering walks along with a counter and takes no notice of old labels. `CountedFrom` says the same without a counter:
the redexes in pre-order carry consecutive labels, and nothing else carries one. Numbering always gives such a term, and
it gives the term itself exactly if the term was one already, `numberFrom_eq_self_iff`. -/

namespace BetaStepper

namespace Term

/-! ## Pre-order -/

/-- The paths to all nodes: to a node before the nodes below it, and to the function before the argument. -/
def preorder : Term → List Path
  | var _ _ => [[]]
  | lam _ body _ => [] :: body.preorder.map (.body :: ·)
  | app func arg _ _ => [] :: (func.preorder.map (.func :: ·) ++ arg.preorder.map (.arg :: ·))
  | hole => [[]]

theorem mem_preorder_iff {term : Term} {path : Path} : path ∈ term.preorder ↔ (term.at? path).isSome := by
  constructor
  · intro member
    induction term generalizing path with
    | var | hole =>
      obtain rfl := List.mem_singleton.1 member
      rfl
    | lam param body origin bodyHypothesis =>
      rcases List.mem_cons.1 member with rfl | below
      · rfl
      · obtain ⟨inner, innerMember, rfl⟩ := List.mem_map.1 below
        exact bodyHypothesis innerMember
    | app func arg label origin funcHypothesis argHypothesis =>
      rcases List.mem_cons.1 member with rfl | below
      · rfl
      · rcases List.mem_append.1 below with inFunc | inArg
        · obtain ⟨inner, innerMember, rfl⟩ := List.mem_map.1 inFunc
          exact funcHypothesis innerMember
        · obtain ⟨inner, innerMember, rfl⟩ := List.mem_map.1 inArg
          exact argHypothesis innerMember
  · intro there
    obtain ⟨node, found⟩ := Option.isSome_iff_exists.1 there
    induction leads_of_at? found with
    | here => cases node <;> simp [preorder]
    | body _ bodyHypothesis => simpa [preorder] using bodyHypothesis there found
    | func _ funcHypothesis => simpa [preorder] using funcHypothesis there found
    | arg _ argHypothesis => simpa [preorder] using argHypothesis there found

theorem nodup_preorder (term : Term) : term.preorder.Nodup := by
  have below (turn : Turn) {paths : List Path} (distinct : paths.Nodup) : (paths.map (turn :: ·)).Nodup :=
    List.pairwise_map.2 (distinct.imp fun apart same => apart (List.tail_eq_of_cons_eq same))
  induction term with
  | var | hole => exact List.pairwise_singleton _ _
  | lam _ _ _ bodyHypothesis => exact List.nodup_cons.2 ⟨by simp, below .body bodyHypothesis⟩
  | app _ _ _ _ funcHypothesis argHypothesis =>
    refine List.nodup_cons.2 ⟨by simp, List.nodup_append.2 ⟨below .func funcHypothesis, below .arg argHypothesis, ?_⟩⟩
    intro path inFunc other inArg same
    obtain ⟨_, _, rfl⟩ := List.mem_map.1 inFunc
    obtain ⟨_, _, rfl⟩ := List.mem_map.1 inArg
    cases same

/-- The redex at the end of a path, if there is one. -/
def redexAt? (term : Term) (path : Path) : Option Place := ((term.at? path).bind redexHere?).map (Place.mk path)

theorem filterMap_redexAt? {term inner : Term} {turn : Turn}
    (enters : ∀ path, term.at? (turn :: path) = inner.at? path) (paths : List Path) :
    (paths.map (turn :: ·)).filterMap term.redexAt? = (paths.filterMap inner.redexAt?).map (.below turn) := by
  rw [List.filterMap_map, List.map_filterMap]
  congr 1
  funext path
  simp only [Function.comp_apply, redexAt?, enters, Option.map_map]
  rfl

/-- The places of redexes are the nodes that are redexes, in pre-order. -/
theorem redexPlaces_eq_filterMap (term : Term) : term.redexPlaces = term.preorder.filterMap term.redexAt? := by
  induction term with
  | var | hole => rfl
  | lam param body origin bodyHypothesis =>
    rw [redexPlaces, preorder, List.filterMap_cons_none rfl, filterMap_redexAt? fun _ => rfl, bodyHypothesis]
  | app func arg label origin funcHypothesis argHypothesis =>
    rw [redexPlaces, preorder, List.filterMap_cons, List.filterMap_append, filterMap_redexAt? fun _ => rfl,
      filterMap_redexAt? fun _ => rfl, funcHypothesis, argHypothesis]
    have here : (app func arg label origin).redexAt? [] =
        (app func arg label origin).redexHere?.map (Place.mk []) := rfl
    rw [here]
    cases (app func arg label origin).redexHere? <;> rfl

theorem map_path_redexPlaces_of_bare_eq {term other : Term} (same : term.bare = other.bare) :
    term.redexPlaces.map Place.path = other.redexPlaces.map Place.path := by
  have paths (term : Term) : term.redexPlaces.map Place.path = term.bare.redexPlaces.map Place.path := by
    rw [redexPlaces_bare, List.map_map]
    rfl
  rw [paths term, same, ← paths]

/-! ## Consecutive labels -/

/-- The term with all labels taken off. Names, shape and provenance are kept. -/
def unlabelled : Term → Term
  | var name origin => var name origin
  | lam param body origin => lam param body.unlabelled origin
  | app func arg _ origin => app func.unlabelled arg.unlabelled none origin
  | hole => hole

theorem unlabelled_numberFrom (next : Nat) (term : Term) : (term.numberFrom next).1.unlabelled = term.unlabelled := by
  induction term generalizing next with
  | var | hole => rfl
  | lam _ _ _ bodyHypothesis => simp only [numberFrom, unlabelled, bodyHypothesis]
  | app _ _ _ _ funcHypothesis argHypothesis =>
    simp only [numberFrom, unlabelled, funcHypothesis, argHypothesis]

/-- The redexes carry the labels from `next` on in pre-order, and no other application carries a label. -/
structure CountedFrom (next : Nat) (term : Term) : Prop where
  redexes : term.redexes.map Redex.label = labelsFrom next term.redexCount
  others : ∀ path func arg label origin, term.at? path = some (app func arg label origin) →
    func.isAbstraction = false → label = none

theorem countedFrom_numberFrom (next : Nat) (term : Term) : CountedFrom next (term.numberFrom next).1 where
  redexes := by rw [labels_numberFrom, redexCount_eq_of_bare_eq (bare_numberFrom next term)]
  others := by
    induction term generalizing next with
    | var | hole =>
      intro path func arg label origin found
      cases leads_of_at? found
    | lam _ _ _ bodyHypothesis =>
      intro path func arg label origin found noRedex
      cases leads_of_at? found with
      | body => exact bodyHypothesis next _ _ _ _ _ found noRedex
    | app ownFunc _ _ _ funcHypothesis argHypothesis =>
      intro path func arg label origin found noRedex
      cases leads_of_at? found with
      | here =>
        rw [isAbstraction_numberFrom] at noRedex
        rw [noRedex]
        rfl
      | func => exact funcHypothesis _ _ _ _ _ _ found noRedex
      | arg => exact argHypothesis _ _ _ _ _ _ found noRedex

theorem CountedFrom.body {next : Nat} {param : String} {body : Term} {origin : Provenance}
    (counted : CountedFrom next (lam param body origin)) : CountedFrom next body where
  redexes := counted.redexes
  others := fun path func arg label origin found => counted.others (.body :: path) func arg label origin found

/-- The label of an application and where its two sides are counted from. -/
theorem CountedFrom.sides {next : Nat} {func arg : Term} {label : Option Int} {origin : Provenance}
    (counted : CountedFrom next (app func arg label origin)) :
    label = (if func.isAbstraction then some (next : Int) else none) ∧
      CountedFrom (if func.isAbstraction then next + 1 else next) func ∧
      CountedFrom ((if func.isAbstraction then next + 1 else next) + func.redexCount) arg := by
  have labels := counted.redexes
  rw [Term.redexes, List.map_append, List.map_append, map_label_redexHere?, redexCount_app] at labels
  -- a path below one side leads through the whole application
  have othersFunc := fun path => counted.others (.func :: path)
  have othersArg := fun path => counted.others (.arg :: path)
  -- the labels of the two sides are told apart by how many they are
  have sameLength (first : Nat) :
      (func.redexes.map Redex.label).length = (labelsFrom first func.redexCount).length := by
    simp [labelsFrom, redexCount]
  cases isRedex : func.isAbstraction with
  | true =>
    rw [isRedex, if_pos rfl, if_pos rfl, Nat.add_comm 1, labelsFrom_succ, ← labelsFrom_append, List.singleton_append,
      List.cons.injEq] at labels
    obtain ⟨labelsFunc, labelsArg⟩ := List.append_inj labels.2 (sameLength (next + 1))
    exact ⟨labels.1, ⟨labelsFunc, othersFunc⟩, labelsArg, othersArg⟩
  | false =>
    rw [isRedex, if_neg Bool.false_ne_true, if_neg Bool.false_ne_true, Nat.zero_add, List.nil_append,
      ← labelsFrom_append] at labels
    obtain ⟨labelsFunc, labelsArg⟩ := List.append_inj labels (sameLength next)
    exact ⟨counted.others [] _ _ _ _ rfl isRedex, ⟨labelsFunc, othersFunc⟩, labelsArg, othersArg⟩

theorem CountedFrom.numberFrom_eq {next : Nat} {term : Term} (counted : CountedFrom next term) :
    (term.numberFrom next).1 = term := by
  induction term generalizing next with
  | var | hole => rfl
  | lam _ _ _ bodyHypothesis => simp only [numberFrom, bodyHypothesis counted.body]
  | app func arg label origin funcHypothesis argHypothesis =>
    obtain ⟨own, countedFunc, countedArg⟩ := counted.sides
    simp only [numberFrom, numberFrom_snd, funcHypothesis countedFunc, argHypothesis countedArg, own]

theorem numberFrom_eq_self_iff {next : Nat} {term : Term} :
    (term.numberFrom next).1 = term ↔ CountedFrom next term := by
  constructor
  · intro same
    have counted := countedFrom_numberFrom next term
    rwa [same] at counted
  · exact CountedFrom.numberFrom_eq

/-- Numbering labels the redexes 1, 2, … in pre-order, takes every other label off and changes nothing else. The
redexes of the numbered term are those at the same places. Numbering leaves a term alone exactly if it has these labels
already. Only the nesting limit can keep it from giving its result. -/
theorem number_counts_redexes (term : Term) :
    let numbered := term.number
    numbered.redexes.map Redex.label = labelsFrom 1 term.redexCount ∧
    CountedFrom 1 numbered ∧
    numbered.unlabelled = term.unlabelled ∧
    numbered.redexPlaces = numbered.preorder.filterMap numbered.redexAt? ∧
    numbered.redexPlaces.map Place.redex = numbered.redexes ∧
    numbered.redexPlaces.map Place.path = term.redexPlaces.map Place.path ∧
    (numbered = term ↔ CountedFrom 1 term) ∧
    numbered.number = numbered ∧
    (term.complete = true → term.nesting ≤ nestingLimit →
      Guarded.number term = .ok numbered ∧ Guarded.redexes numbered = .ok numbered.redexes) := by
  intro numbered
  refine ⟨labels_numberFrom 1 term, countedFrom_numberFrom 1 term, unlabelled_numberFrom 1 term,
    redexPlaces_eq_filterMap numbered, map_redex_redexPlaces numbered, ?_, numberFrom_eq_self_iff,
    number_number term, ?_⟩
  · exact map_path_redexPlaces_of_bare_eq (bare_number term)
  · intro complete shallow
    have fits : term.Fits nestingLimit := ⟨complete, shallow⟩
    refine ⟨Guarded.number_eq_ok.2 ⟨fits, rfl⟩, ?_⟩
    rw [Guarded.redexes, Visit.lenient_of_fits (fits.of_bare_eq (bare_number term).symm)]
    rfl

end Term

end BetaStepper
