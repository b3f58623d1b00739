import BetaStepper.Proofs.Limits
import BetaStepper.Proofs.Uses

/-! # The footprint of substitution

Where a term differs after a substitution: copies stand in the places of the uses, binders may have gained primes, and
the variables of such a binder have gained them too. Everything else is found where it was, with all that it records.
A renamed body goes through two substitutions before it is in place, so each fact is proved for any substitution and
used twice at a renamed binder. What carries the module is `followed_substitute`: the variables of a binder that is
renamed are found where they were and belong to it as before. -/

namespace BetaStepper

namespace Term

/-! ## Free and bound variables -/

theorem mem_usePaths_var {name other : String} {origin : Provenance} {use : Path} :
    use ∈ (var other origin).usePaths name ↔ other = name ∧ use = [] := by
  rw [usePaths]
  split <;> simp [*]

theorem mem_usePaths_lam {name param : String} {body : Term} {origin : Provenance} {use : Path} :
    use ∈ (lam param body origin).usePaths name ↔
      param ≠ name ∧ ∃ inner ∈ body.usePaths name, .body :: inner = use := by
  rw [usePaths]
  split <;> simp [*]

theorem mem_usePaths_app {name : String} {func arg : Term} {label : Option Int} {origin : Provenance} {use : Path} :
    use ∈ (app func arg label origin).usePaths name ↔
      (∃ inner ∈ func.usePaths name, .func :: inner = use) ∨ ∃ inner ∈ arg.usePaths name, .arg :: inner = use := by
  rw [usePaths, List.mem_append, List.mem_map, List.mem_map]

/-- The variable at the end of `path` refers to the abstraction at the end of `binder`. -/
def BoundBy (term : Term) (binder path : Path) : Prop :=
  ∃ param body origin use, term.at? binder = some (lam param body origin) ∧ use ∈ body.usePaths param ∧
    path = binder ++ .body :: use

theorem BoundBy.below {term inner : Term} {turn : Turn} {binder path : Path}
    (enters : ∀ path, term.at? (turn :: path) = inner.at? path) (bound : inner.BoundBy binder path) :
    term.BoundBy (turn :: binder) (turn :: path) := by
  obtain ⟨param, body, origin, use, found, used, rfl⟩ := bound
  exact ⟨param, body, origin, use, (enters binder).trans found, used, rfl⟩

theorem free_or_bound {term : Term} {path : Path} {name : String} {origin : Provenance}
    (found : term.at? path = some (var name origin)) :
    path ∈ term.usePaths name ∨ ∃ binder, term.BoundBy binder path := by
  induction leads_of_at? found with
  | here => exact .inl (mem_usePaths_var.2 ⟨rfl, rfl⟩)
  | @body param body origin path _ bodyHypothesis =>
    rcases bodyHypothesis found with isFree | ⟨binder, bound⟩
    · -- what is free in the body is bound here or not at all
      by_cases same : param = name
      · exact .inr ⟨[], param, body, origin, path, rfl, same ▸ isFree, rfl⟩
      · exact .inl (mem_usePaths_lam.2 ⟨same, path, isFree, rfl⟩)
    · exact .inr ⟨_, bound.below fun _ => rfl⟩
  | @func _ _ _ _ path _ funcHypothesis =>
    rcases funcHypothesis found with isFree | ⟨binder, bound⟩
    · exact .inl (mem_usePaths_app.2 (.inl ⟨path, isFree, rfl⟩))
    · exact .inr ⟨_, bound.below fun _ => rfl⟩
  | @arg _ _ _ _ path _ argHypothesis =>
    rcases argHypothesis found with isFree | ⟨binder, bound⟩
    · exact .inl (mem_usePaths_app.2 (.inr ⟨path, isFree, rfl⟩))
    · exact .inr ⟨_, bound.below fun _ => rfl⟩

theorem at?_append (term : Term) (path more : Path) :
    term.at? (path ++ more) = (term.at? path).bind (·.at? more) := by
  induction path generalizing term with
  | nil => simp
  | cons turn path pathHypothesis =>
    cases term <;> cases turn <;> first | rfl | exact pathHypothesis _

theorem at?_of_mem_usePaths {name : String} {term : Term} {use : Path} (used : use ∈ term.usePaths name) :
    ∃ origin, term.at? use = some (var name origin) := by
  induction term generalizing use with
  | var other origin =>
    obtain ⟨rfl, rfl⟩ := mem_usePaths_var.1 used
    exact ⟨origin, at?_nil _⟩
  | lam param body origin bodyHypothesis =>
    obtain ⟨_, inner, innerUsed, rfl⟩ := mem_usePaths_lam.1 used
    exact bodyHypothesis innerUsed
  | app func arg label origin funcHypothesis argHypothesis =>
    rcases mem_usePaths_app.1 used with ⟨inner, innerUsed, rfl⟩ | ⟨inner, innerUsed, rfl⟩
    · exact funcHypothesis innerUsed
    · exact argHypothesis innerUsed
  | hole => cases used

/-- The path leads to a node of the term, or to a use of the name and on from there. -/
def Within (name : String) (term : Term) (path : Path) : Prop :=
  (term.at? path).isSome ∨ ∃ use ∈ term.usePaths name, use <+: path

theorem Within.below {name : String} {term inner : Term} {turn : Turn} {path : Path}
    (enters : ∀ path, term.at? (turn :: path) = inner.at? path)
    (uses : ∀ use ∈ inner.usePaths name, turn :: use ∈ term.usePaths name) (within : inner.Within name path) :
    term.Within name (turn :: path) := by
  rcases within with there | ⟨use, used, above⟩
  · exact .inl (by rwa [enters])
  · exact .inr ⟨turn :: use, uses use used, List.cons_prefix_cons.2 ⟨rfl, above⟩⟩

/-! ## Uses of the names that come and go -/

/-- After a substitution the name is used no more, unless the replacement uses it. -/
theorem usePaths_substitute_self {name : String} {replacement : Term} (foreign : name ∉ replacement.freeNames)
    (term : Term) (mark : Bool) (source : Option Int) :
    (term.substitute name replacement mark source).usePaths name = [] := by
  induction term using renamingInduction with
  | var other origin =>
    rw [substitute_var]
    split
    · exact usePaths_of_not_mem (by rwa [freeNames_stamp])
    next apart => rw [usePaths, if_neg apart]
  | lam param body origin bodyHypothesis renamedHypothesis =>
    rw [substitute_lam]
    split
    next same => rw [usePaths, if_pos same]
    next apart =>
      split
      · obtain ⟨_, _, ne⟩ := renamed_apart param body name replacement
        rw [usePaths, if_neg ne, renamedHypothesis, List.map_nil]
      · rw [usePaths, if_neg apart, bodyHypothesis, List.map_nil]
  | app func arg label origin funcHypothesis argHypothesis =>
    rw [substitute_app, usePaths, funcHypothesis, argHypothesis]
    rfl
  | hole => rw [substitute_hole, usePaths]

/-- A new name is used exactly where the old one was. -/
theorem usePaths_rename_fresh {name fresh : String} {term : Term} (unused : term.usePaths fresh = []) :
    (term.rename name fresh).usePaths fresh = term.usePaths name := by
  rw [rename]
  induction term using renamingInduction generalizing name fresh with
  | var other origin =>
    rw [substitute_var, usePaths]
    split
    · simp [stamp, usePaths]
    · exact unused
  | lam param body origin bodyHypothesis renamedHypothesis =>
    rw [substitute_lam, usePaths]
    split
    · exact unused
    next apart =>
      split
      next captured =>
        -- the binder has the new name already and makes way for it
        obtain rfl : param = fresh := by simpa using captured
        obtain ⟨foreign, _, ne⟩ := renamed_apart param body name (var param {})
        rw [mem_freeNames_var] at foreign
        have gone : (body.rename param (renamed param body name (var param {}))).usePaths param = [] :=
          usePaths_substitute_self (by simpa using Ne.symm foreign) body false none
        rw [usePaths, if_neg foreign, renamedHypothesis _ _ gone, usePaths_rename (Ne.symm apart) (Ne.symm ne)]
      next spared =>
        have ne : param ≠ fresh := by simpa using spared
        rw [usePaths, if_neg ne, List.map_eq_nil_iff] at unused
        rw [usePaths, if_neg ne, bodyHypothesis unused]
  | app func arg label origin funcHypothesis argHypothesis =>
    rw [usePaths, List.append_eq_nil_iff, List.map_eq_nil_iff, List.map_eq_nil_iff] at unused
    rw [substitute_app, usePaths, usePaths, funcHypothesis unused.1, argHypothesis unused.2]
  | hole => rw [substitute_hole]; rfl

/-! ## Variables -/

section

variable (term : Term) (name : String) (replacement : Term) (mark : Bool) (source : Option Int)

/-- Every use of the name is replaced in its place. -/
theorem at?_substitute_use {use : Path} (used : use ∈ term.usePaths name) :
    (term.substitute name replacement mark source).at? use = some (replacement.stamp mark source) := by
  induction term using renamingInduction generalizing use with
  | var other origin =>
    obtain ⟨same, rfl⟩ := mem_usePaths_var.1 used
    rw [substitute_var, if_pos same, at?_nil]
  | lam param body origin bodyHypothesis renamedHypothesis =>
    obtain ⟨apart, inner, innerUsed, rfl⟩ := mem_usePaths_lam.1 used
    rw [substitute_lam, if_neg apart]
    split
    · obtain ⟨_, _, ne⟩ := renamed_apart param body name replacement
      rw [← usePaths_rename (Ne.symm apart) (Ne.symm ne)] at innerUsed
      exact renamedHypothesis _ _ innerUsed
    · exact bodyHypothesis innerUsed
  | app func arg label origin funcHypothesis argHypothesis =>
    rw [substitute_app]
    rcases mem_usePaths_app.1 used with ⟨inner, innerUsed, rfl⟩ | ⟨inner, innerUsed, rfl⟩
    · exact funcHypothesis innerUsed
    · exact argHypothesis innerUsed
  | hole => cases used

/-- The uses of other names stay as they are. -/
theorem at?_substitute_free {other : String} (apart : other ≠ name) {use : Path} (used : use ∈ term.usePaths other) :
    (term.substitute name replacement mark source).at? use = term.at? use := by
  induction term using renamingInduction generalizing use name replacement mark source with
  | var own origin =>
    obtain ⟨rfl, rfl⟩ := mem_usePaths_var.1 used
    rw [substitute_var, if_neg apart]
  | lam param body origin bodyHypothesis renamedHypothesis =>
    obtain ⟨unbound, inner, innerUsed, rfl⟩ := mem_usePaths_lam.1 used
    rw [substitute_lam]
    split
    · rfl
    · split
      · -- the new name of the binder is not used in the body, so it is not `other`
        obtain ⟨_, unused, _⟩ := renamed_apart param body name replacement
        have ne : other ≠ renamed param body name replacement := by
          rintro rfl
          rw [usePaths_of_not_mem unused] at innerUsed
          cases innerUsed
        have kept : (body.rename param (renamed param body name replacement)).at? inner = body.at? inner :=
          bodyHypothesis _ _ _ _ (Ne.symm unbound) innerUsed
        rw [← usePaths_rename (Ne.symm unbound) ne] at innerUsed
        exact (renamedHypothesis _ _ _ _ _ _ apart innerUsed).trans kept
      · exact bodyHypothesis _ _ _ _ apart innerUsed
  | app func arg label origin funcHypothesis argHypothesis =>
    rw [substitute_app]
    rcases mem_usePaths_app.1 used with ⟨inner, innerUsed, rfl⟩ | ⟨inner, innerUsed, rfl⟩
    · exact funcHypothesis _ _ _ _ apart innerUsed
    · exact argHypothesis _ _ _ _ apart innerUsed
  | hole => cases used

/-! ## Abstractions and applications -/

/-- The variables of a binder have followed it: they stand where they stood, unchanged if the binder has its old name,
and as new variables if primes were added to it. -/
structure Followed (param : String) (count : Nat) (body newBody : Term) : Prop where
  uses : newBody.usePaths (primed param count) = body.usePaths param
  vars : ∀ use ∈ body.usePaths param,
    newBody.at? use = if count = 0 then body.at? use else some (var (primed param count) {})

theorem Followed.refl (param : String) (body : Term) : Followed param 0 body body where
  uses := by rw [primed_zero]
  vars := fun _ _ => (if_pos rfl).symm

theorem Followed.trans {param : String} {count more : Nat} {body between newBody : Term}
    (first : Followed param count body between) (second : Followed (primed param count) more between newBody) :
    Followed param (count + more) body newBody where
  uses := by rw [← primed_primed, second.uses, first.uses]
  vars := by
    intro use used
    rw [second.vars use (by rwa [first.uses]), first.vars use used, primed_primed]
    -- if the second step adds no primes, the variable is as the first left it
    by_cases none : more = 0
    · simp [none]
    · simp [none]

/-- The body of a binder that substitution enters, with the name that it has afterwards. -/
theorem followed_substitute {param : String} {body : Term} (apart : param ≠ name) :
    ∃ count newBody, (∀ origin, (lam param body origin).substitute name replacement mark source =
      lam (primed param count) newBody origin) ∧ Followed param count body newBody := by
  by_cases captured : param ∈ replacement.freeNames
  · obtain ⟨foreign, unused, ne⟩ := renamed_apart param body name replacement
    obtain ⟨count, fresh, _⟩ := freshName_eq_primed param (replacement.freeNames ++ body.freeNames ++ [name])
    rw [← renamed] at fresh
    rw [fresh] at foreign unused ne
    have added : count ≠ 0 := by
      rintro rfl
      rw [primed_zero] at foreign
      exact foreign captured
    have sameUses : (body.rename param (primed param count)).usePaths (primed param count) = body.usePaths param :=
      usePaths_rename_fresh (usePaths_of_not_mem unused)
    refine ⟨count, (body.rename param (primed param count)).substitute name replacement mark source, ?_, ?_, ?_⟩
    · intro origin
      rw [substitute_lam, if_neg apart, if_pos captured, fresh]
    · rw [usePaths_substitute ne foreign, sameUses]
    · intro use used
      rw [if_neg added, at?_substitute_free _ _ _ _ _ ne (by rwa [sameUses]), rename, at?_substitute_use _ _ _ _ _ used]
      rfl
  · refine ⟨0, body.substitute name replacement mark source, ?_, ?_, ?_⟩
    · intro origin
      rw [substitute_lam, if_neg apart, if_neg captured, primed_zero]
    · rw [primed_zero, usePaths_substitute apart captured]
    · intro use used
      rw [if_pos rfl, at?_substitute_free _ _ _ _ _ apart used]

theorem at?_substitute_lam {path : Path} {param : String} {body : Term} {origin : Provenance}
    (found : term.at? path = some (lam param body origin)) :
    ∃ count newBody, (term.substitute name replacement mark source).at? path =
      some (lam (primed param count) newBody origin) ∧ Followed param count body newBody := by
  induction term using renamingInduction generalizing path param body name replacement mark source with
  | var | hole => cases leads_of_at? found
  | lam own inner binder innerHypothesis renamedHypothesis =>
    by_cases same : own = name
    · rw [substitute_lam, if_pos same, found]
      exact ⟨0, body, by rw [primed_zero], .refl param body⟩
    · cases leads_of_at? found with
      | here =>
        obtain ⟨count, newBody, entered, followed⟩ := followed_substitute name replacement mark source same
        exact ⟨count, newBody, by rw [entered, at?_nil], followed⟩
      | body =>
        rw [substitute_lam, if_neg same]
        split
        · -- first the binder is renamed in the body, then the name is replaced there
          obtain ⟨count, between, foundBetween, first⟩ := innerHypothesis own (var _ {}) false none found
          obtain ⟨more, newBody, foundNew, second⟩ :=
            renamedHypothesis own (renamed own inner name replacement) name replacement mark source foundBetween
          exact ⟨count + more, newBody, by rw [← primed_primed]; exact foundNew, first.trans second⟩
        · exact innerHypothesis _ _ _ _ found
  | app func arg label own funcHypothesis argHypothesis =>
    rw [substitute_app]
    cases leads_of_at? found with
    | func => exact funcHypothesis _ _ _ _ found
    | arg => exact argHypothesis _ _ _ _ found

theorem at?_substitute_app {path : Path} {func arg : Term} {label : Option Int} {origin : Provenance}
    (found : term.at? path = some (app func arg label origin)) :
    ∃ newFunc newArg, (term.substitute name replacement mark source).at? path =
      some (app newFunc newArg label origin) := by
  induction term using renamingInduction generalizing path func arg name replacement mark source with
  | var | hole => cases leads_of_at? found
  | lam own inner binder innerHypothesis renamedHypothesis =>
    rw [substitute_lam]
    cases leads_of_at? found with
    | body =>
      split
      · exact ⟨func, arg, found⟩
      · split
        · -- both the renaming and the replacement pass the application by
          obtain ⟨_, _, foundBetween⟩ := innerHypothesis own (var _ {}) false none found
          exact renamedHypothesis _ _ _ _ _ _ foundBetween
        · exact innerHypothesis _ _ _ _ found
  | app ownFunc ownArg own ownOrigin funcHypothesis argHypothesis =>
    rw [substitute_app]
    cases leads_of_at? found with
    | here => exact ⟨_, _, at?_nil _⟩
    | func => exact funcHypothesis _ _ _ _ found
    | arg => exact argHypothesis _ _ _ _ found

/-! ## Nothing else -/

/-- Every node of the result stands where a node stood or inside a copy. -/
theorem within_of_at?_substitute {path : Path} {node : Term}
    (found : (term.substitute name replacement mark source).at? path = some node) : term.Within name path := by
  induction term using renamingInduction generalizing path node name replacement mark source with
  | var other origin =>
    by_cases same : other = name
    · exact .inr ⟨[], mem_usePaths_var.2 ⟨same, rfl⟩, List.nil_prefix⟩
    · rw [substitute_var, if_neg same] at found
      exact .inl (by rw [found]; rfl)
  | lam param body origin bodyHypothesis renamedHypothesis =>
    rw [substitute_lam] at found
    split at found
    · exact .inl (by rw [found]; rfl)
    next apart =>
      have below {inner : Path} : body.Within name inner → (lam param body origin).Within name (.body :: inner) :=
        Within.below (fun _ => rfl) fun use used => mem_usePaths_lam.2 ⟨apart, use, used, rfl⟩
      split at found
      · cases leads_of_at? found with
        | here => exact .inl rfl
        | body =>
          obtain ⟨_, _, ne⟩ := renamed_apart param body name replacement
          rcases renamedHypothesis _ _ _ _ _ _ found with there | ⟨use, used, above⟩
          · -- the renaming has put single variables where variables were
            obtain ⟨between, foundBetween⟩ := Option.isSome_iff_exists.1 there
            rcases bodyHypothesis _ _ _ _ foundBetween with before | ⟨use, used, more, rfl⟩
            · exact below (.inl before)
            · rw [at?_append, rename, at?_substitute_use _ _ _ _ _ used] at foundBetween
              cases leads_of_at? (show (var _ _).at? more = some between from foundBetween)
              obtain ⟨_, before⟩ := at?_of_mem_usePaths used
              exact below (.inl (by rw [List.append_nil, before]; rfl))
          · rw [usePaths_rename (Ne.symm apart) (Ne.symm ne)] at used
            exact below (.inr ⟨use, used, above⟩)
      · cases leads_of_at? found with
        | here => exact .inl rfl
        | body => exact below (bodyHypothesis _ _ _ _ found)
  | app func arg label origin funcHypothesis argHypothesis =>
    rw [substitute_app] at found
    cases leads_of_at? found with
    | here => exact .inl rfl
    | func =>
      exact (funcHypothesis _ _ _ _ found).below (fun _ => rfl)
        fun use used => mem_usePaths_app.2 (.inl ⟨use, used, rfl⟩)
    | arg =>
      exact (argHypothesis _ _ _ _ found).below (fun _ => rfl)
        fun use used => mem_usePaths_app.2 (.inr ⟨use, used, rfl⟩)
  | hole =>
    rw [substitute_hole] at found
    exact .inl (by rw [found]; rfl)

end

/-! ## The footprint -/

/-- The abstraction at the end of the path has another parameter in `result` than in `term`. -/
def RenamedAt (term result : Term) (path : Path) : Prop :=
  ∃ param body origin newParam newBody newOrigin, term.at? path = some (lam param body origin) ∧
    result.at? path = some (lam newParam newBody newOrigin) ∧ newParam ≠ param

/-- `result` is `term` with `copy` for each use of `name`, and with primes added to some binders and to their
variables. -/
structure Footprint (name : String) (copy term result : Term) : Prop where
  copy_at : ∀ use ∈ term.usePaths name, result.at? use = some copy
  app_at : ∀ path func arg label origin, term.at? path = some (app func arg label origin) →
    ∃ newFunc newArg, result.at? path = some (app newFunc newArg label origin)
  lam_at : ∀ path param body origin, term.at? path = some (lam param body origin) →
    ∃ count newBody, result.at? path = some (lam (primed param count) newBody origin)
  var_at : ∀ path other origin, term.at? path = some (var other origin) → path ∉ term.usePaths name →
    (∀ binder, term.BoundBy binder path → ¬ RenamedAt term result binder) →
    result.at? path = some (var other origin)
  /-- A variable of a renamed binder is a new variable of the same binder. -/
  renamed_var_at : ∀ binder path, term.BoundBy binder path → RenamedAt term result binder →
    ∃ param body origin, result.at? binder = some (lam param body origin) ∧ result.at? path = some (var param {}) ∧
      result.BoundBy binder path
  /-- There is nothing but the nodes of the term and what lies in the copies. -/
  within : ∀ path node, result.at? path = some node → term.Within name path

/-- A variable that is bound stands in the result as its binder does: as it was, or with the new name. -/
theorem at?_substitute_bound {term : Term} {binder path : Path} (bound : term.BoundBy binder path) (name : String)
    (replacement : Term) (mark : Bool) (source : Option Int) :
    ∃ param body origin count newBody, term.at? binder = some (lam param body origin) ∧
      (term.substitute name replacement mark source).at? binder = some (lam (primed param count) newBody origin) ∧
      (term.substitute name replacement mark source).BoundBy binder path ∧
      (term.substitute name replacement mark source).at? path =
        if count = 0 then term.at? path else some (var (primed param count) {}) := by
  obtain ⟨param, body, origin, use, found, used, rfl⟩ := bound
  obtain ⟨count, newBody, foundNew, followed⟩ := at?_substitute_lam term name replacement mark source found
  refine ⟨param, body, origin, count, newBody, found, foundNew, ?_, ?_⟩
  · exact ⟨_, newBody, origin, use, foundNew, by rwa [followed.uses], rfl⟩
  · rw [at?_append, at?_append, found, foundNew]
    exact followed.vars use used

theorem renamedAt_iff {term result body newBody : Term} {path : Path} {param : String} {count : Nat}
    {origin : Provenance} (found : term.at? path = some (lam param body origin))
    (foundNew : result.at? path = some (lam (primed param count) newBody origin)) :
    RenamedAt term result path ↔ count ≠ 0 := by
  constructor
  · rintro ⟨_, _, _, _, _, _, foundOld, foundOther, apart⟩ rfl
    rw [found, Option.some.injEq, lam.injEq] at foundOld
    rw [foundNew, Option.some.injEq, lam.injEq, primed_zero] at foundOther
    exact apart (foundOther.1.symm.trans foundOld.1)
  · intro added
    refine ⟨param, body, origin, _, newBody, origin, found, foundNew, ?_⟩
    intro same
    have longer := length_primed param count
    rw [same] at longer
    omega

theorem footprint_substitute (term : Term) (name : String) (replacement : Term) (mark : Bool) (source : Option Int) :
    Footprint name (replacement.stamp mark source) term (term.substitute name replacement mark source) where
  copy_at := fun _ used => at?_substitute_use term name replacement mark source used
  app_at := fun _ _ _ _ _ found => at?_substitute_app term name replacement mark source found
  lam_at := by
    intro path param body origin found
    obtain ⟨count, newBody, foundNew, _⟩ := at?_substitute_lam term name replacement mark source found
    exact ⟨count, newBody, foundNew⟩
  var_at := by
    intro path other origin found unused unrenamed
    rcases free_or_bound found with isFree | ⟨binder, bound⟩
    · have apart : other ≠ name := by
        rintro rfl
        exact unused isFree
      rw [at?_substitute_free term name replacement mark source apart isFree, found]
    · obtain ⟨param, body, binding, count, newBody, foundOld, foundNew, _, stands⟩ :=
        at?_substitute_bound bound name replacement mark source
      have none : count = 0 := by
        by_contra added
        exact unrenamed binder bound ((renamedAt_iff foundOld foundNew).2 added)
      rw [stands, if_pos none, found]
  renamed_var_at := by
    intro binder path bound renamedThere
    obtain ⟨param, body, binding, count, newBody, foundOld, foundNew, boundNew, stands⟩ :=
      at?_substitute_bound bound name replacement mark source
    have added : count ≠ 0 := (renamedAt_iff foundOld foundNew).1 renamedThere
    exact ⟨_, newBody, binding, foundNew, by rw [stands, if_neg added], boundNew⟩
  within := fun _ _ found => within_of_at?_substitute term name replacement mark source found

/-- Substitution puts a stamped copy of the replacement in the place of each free occurrence of the name. All
applications and abstractions stay in their places with their labels and provenance, a parameter at most gains primes,
and a variable changes only if it is replaced or its binder is renamed. Only the nesting limit can keep substitution
from giving its result. -/
theorem substitution_leaves_the_rest (term : Term) (name : String) (replacement : Term) (mark : Bool)
    (source : Option Int) :
    let result := term.substitute name replacement mark source
    Footprint name (replacement.stamp mark source) term result ∧
    (term.uses name).map some = (term.usePaths name).map term.at? ∧
    (term.complete = true → replacement.complete = true → term.nesting + replacement.nesting ≤ nestingLimit →
      Guarded.substitute term name replacement mark source = .ok result) := by
  intro result
  refine ⟨footprint_substitute term name replacement mark source, map_uses name term, ?_⟩
  intro complete completeReplacement shallow
  exact Guarded.substitute_of_shallow complete completeReplacement shallow name mark source

end Term

end BetaStepper
