import BetaStepper.Proofs.Idle
import BetaStepper.Proofs.Labelling

/-! # What a free occurrence is

The names that are free in a term, the test for one name and the list of its uses are three recursions of their own.
`FreeAt` says what they are about without any recursion: a variable has the name, and nothing above it binds the name.
The uses are the places of which this holds, in pre-order, `usePaths_eq_filter`, and the other two say whether there is
such a place. -/

namespace BetaStepper.Term

/-- The path leads to a variable with the given name, and no abstraction on the way there binds the name. -/
structure FreeAt (name : String) (term : Term) (path : Path) : Prop where
  is_var : ∃ origin, term.at? path = some (var name origin)
  unbound : ∀ above body origin, above <+: path → term.at? above ≠ some (lam name body origin)

variable {name : String} {term inner : Term} {turn : Turn} {path : Path}

theorem freeAt_nil : term.FreeAt name [] ↔ ∃ origin, term = var name origin := by
  constructor
  · rintro ⟨⟨origin, found⟩, _⟩
    rw [at?_nil, Option.some.injEq] at found
    exact ⟨origin, found⟩
  · rintro ⟨origin, rfl⟩
    refine ⟨⟨origin, rfl⟩, ?_⟩
    intro above body binder isAbove
    rw [List.prefix_nil.1 isAbove, at?_nil]
    simp

/-- Below a node that does not bind the name, a place is free in the whole term exactly if it is free in the part. -/
theorem freeAt_cons (enters : ∀ path, term.at? (turn :: path) = inner.at? path)
    (unbinding : ∀ body origin, term ≠ lam name body origin) :
    term.FreeAt name (turn :: path) ↔ inner.FreeAt name path := by
  constructor
  · rintro ⟨⟨origin, found⟩, unbound⟩
    refine ⟨⟨origin, by rwa [← enters]⟩, ?_⟩
    intro above body binder isAbove
    rw [← enters]
    exact unbound (turn :: above) body binder (List.cons_prefix_cons.2 ⟨rfl, isAbove⟩)
  · rintro ⟨⟨origin, found⟩, unbound⟩
    refine ⟨⟨origin, by rwa [enters]⟩, ?_⟩
    intro above body binder isAbove
    cases above with
    | nil => simpa using unbinding body binder
    | cons first above =>
      obtain ⟨rfl, restAbove⟩ := List.cons_prefix_cons.1 isAbove
      rw [enters]
      exact unbound above body binder restAbove

theorem not_freeAt_of_binds (name : String) (body : Term) (origin : Provenance) (path : Path) :
    ¬ (lam name body origin).FreeAt name path :=
  fun isFree => isFree.unbound [] body origin List.nil_prefix rfl

/-! ## The uses of a name are its free occurrences -/

theorem freeAt_of_mem_usePaths (used : path ∈ term.usePaths name) : term.FreeAt name path := by
  induction term generalizing path with
  | var other origin =>
    obtain ⟨rfl, rfl⟩ := mem_usePaths_var.1 used
    exact freeAt_nil.2 ⟨origin, rfl⟩
  | lam param body origin bodyHypothesis =>
    obtain ⟨apart, inner, innerUsed, rfl⟩ := mem_usePaths_lam.1 used
    exact (freeAt_cons (fun _ => rfl) (by simp [apart])).2 (bodyHypothesis innerUsed)
  | app func arg label origin funcHypothesis argHypothesis =>
    rcases mem_usePaths_app.1 used with ⟨inner, innerUsed, rfl⟩ | ⟨inner, innerUsed, rfl⟩
    · exact (freeAt_cons (fun _ => rfl) (by simp)).2 (funcHypothesis innerUsed)
    · exact (freeAt_cons (fun _ => rfl) (by simp)).2 (argHypothesis innerUsed)
  | hole => cases used

theorem mem_usePaths_iff : path ∈ term.usePaths name ↔ term.FreeAt name path := by
  refine ⟨freeAt_of_mem_usePaths, ?_⟩
  rintro ⟨⟨origin, found⟩, unbound⟩
  rcases free_or_bound found with used | ⟨binder, param, body, binderOrigin, use, foundBinder, used, rfl⟩
  · exact used
  · -- a binder of the variable binds its name, which is the one asked for
    obtain ⟨useOrigin, foundUse⟩ := at?_of_mem_usePaths used
    have sameVar : body.at? use = some (var name origin) := by
      rwa [at?_append, foundBinder] at found
    rw [foundUse, Option.some.injEq, var.injEq] at sameVar
    rw [sameVar.1] at foundBinder
    exact absurd foundBinder (unbound binder body binderOrigin (List.prefix_append _ _))

instance (name : String) (term : Term) (path : Path) : Decidable (term.FreeAt name path) :=
  decidable_of_iff _ mem_usePaths_iff

theorem filter_freeAt (enters : ∀ path, term.at? (turn :: path) = inner.at? path)
    (unbinding : ∀ body origin, term ≠ lam name body origin) (paths : List Path) :
    (paths.map (turn :: ·)).filter (fun path => term.FreeAt name path) =
      (paths.filter fun path => inner.FreeAt name path).map (turn :: ·) := by
  rw [List.filter_map]
  congr 2
  funext path
  exact decide_eq_decide.2 (freeAt_cons enters unbinding)

theorem usePaths_eq_filter (name : String) (term : Term) :
    term.usePaths name = term.preorder.filter fun path => term.FreeAt name path := by
  induction term with
  | var other origin => by_cases same : other = name <;> simp [usePaths, preorder, freeAt_nil, same]
  | lam param body origin bodyHypothesis =>
    by_cases same : param = name
    · subst same
      simp [usePaths, not_freeAt_of_binds]
    · have here : ¬ (lam param body origin).FreeAt name [] := by simp [freeAt_nil]
      rw [usePaths, if_neg same, preorder, List.filter_cons_of_neg (by simpa using here),
        filter_freeAt (fun _ => rfl) (by simp [same]), bodyHypothesis]
  | app func arg label origin funcHypothesis argHypothesis =>
    have here : ¬ (app func arg label origin).FreeAt name [] := by simp [freeAt_nil]
    rw [usePaths, preorder, List.filter_cons_of_neg (by simpa using here), List.filter_append,
      filter_freeAt (fun _ => rfl) (by simp), filter_freeAt (fun _ => rfl) (by simp), funcHypothesis, argHypothesis]
  | hole => simp [usePaths, preorder, freeAt_nil]

/-- The three views of free occurrences agree: a name is among the free names exactly if the test finds it, and exactly
if it has uses. The uses are the variables with this name that no abstraction around them binds, each once and in
pre-order. Only the nesting limit can keep the three from giving their results. -/
theorem views_of_free_occurrences_agree (term : Term) (name : String) :
    (name ∈ term.freeNames ↔ term.occursFree name = true) ∧
    (term.occursFree name = true ↔ term.uses name ≠ []) ∧
    (term.uses name).map some = (term.preorder.filter fun path => term.FreeAt name path).map term.at? ∧
    (term.complete = true → term.nesting ≤ nestingLimit →
      Guarded.freeNames term = .ok term.freeNames ∧
      Guarded.occursFree name term = .ok (term.occursFree name) ∧
      Guarded.uses name term = .ok (term.uses name)) := by
  refine ⟨(occursFree_iff name term).symm, ?_, ?_, ?_⟩
  · rw [occursFree_eq, Bool.not_eq_true', List.isEmpty_eq_false_iff]
  · rw [map_uses, usePaths_eq_filter]
  · intro complete shallow
    have fits : term.Fits nestingLimit := ⟨complete, shallow⟩
    refine ⟨Guarded.all_then_eq_ok.2 ⟨fits, rfl⟩, ?_, ?_⟩
    · rw [Guarded.occursFree, Visit.occursFree_of_fits fits]
      rfl
    · rw [Guarded.uses, Visit.uses_of_fits fits]
      rfl

end BetaStepper.Term
