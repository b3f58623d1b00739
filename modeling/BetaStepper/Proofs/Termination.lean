import BetaStepper.Proofs.Footprint

/-! # Substitution comes to an end

A call that renames a binder makes a second call on the renamed body, which is the result of the first and no part of
the term. `Returns` and `MadeBy` say what a call gives and which calls it makes, by rules that do not presuppose that
calls come to an end. Renaming keeps the number of nodes, `Returns.size_eq`, so every call is made on fewer nodes than
the call that makes it. That no chain of calls goes on forever follows, and from it that every call returns. -/

namespace BetaStepper.Term

/-! ## Calls -/

/-- What substitution is called with. -/
structure Call where
  term : Term
  name : String
  replacement : Term
  mark : Bool
  source : Option Int

namespace Call

/-- The same substitution in another term. -/
def inside (call : Call) (term : Term) : Call := { call with term }

theorem term_inside (call : Call) (term : Term) : (call.inside term).term = term := rfl

/-- The call that renames a binder which would capture a free name of the replacement. -/
def renameBinder (call : Call) (param : String) (body : Term) : Call where
  term := body
  name := param
  replacement := var (renamed param body call.name call.replacement) {}
  mark := false
  source := none

/-- The call on a term returns the given result. -/
inductive Returns : Call → Term → Prop where
  | replaced {call : Call} {origin : Provenance} (isUse : call.term = var call.name origin) :
      Returns call (call.replacement.stamp call.mark call.source)
  | kept {call : Call} {other : String} {origin : Provenance} (isVar : call.term = var other origin)
      (apart : other ≠ call.name) : Returns call call.term
  | hidden {call : Call} {body : Term} {origin : Provenance} (isLam : call.term = lam call.name body origin) :
      Returns call call.term
  | entered {call : Call} {param : String} {body newBody : Term} {origin : Provenance}
      (isLam : call.term = lam param body origin) (apart : param ≠ call.name)
      (spared : param ∉ call.replacement.freeNames) (substituted : Returns (call.inside body) newBody) :
      Returns call (lam param newBody origin)
  | avoided {call : Call} {param : String} {body renamedBody newBody : Term} {origin : Provenance}
      (isLam : call.term = lam param body origin) (apart : param ≠ call.name)
      (captured : param ∈ call.replacement.freeNames) (renames : Returns (call.renameBinder param body) renamedBody)
      (substituted : Returns (call.inside renamedBody) newBody) :
      Returns call (lam (renamed param body call.name call.replacement) newBody origin)
  | app {call : Call} {func arg newFunc newArg : Term} {label : Option Int} {origin : Provenance}
      (isApp : call.term = app func arg label origin) (inFunc : Returns (call.inside func) newFunc)
      (inArg : Returns (call.inside arg) newArg) : Returns call (app newFunc newArg label origin)
  | hole {call : Call} (isHole : call.term = hole) : Returns call hole

/-- The first call is made by the second. The call on a renamed body is made once the renaming has returned it. -/
inductive MadeBy : Call → Call → Prop where
  | body {call : Call} {param : String} {body : Term} {origin : Provenance}
      (isLam : call.term = lam param body origin) (apart : param ≠ call.name)
      (spared : param ∉ call.replacement.freeNames) : MadeBy (call.inside body) call
  | rename {call : Call} {param : String} {body : Term} {origin : Provenance}
      (isLam : call.term = lam param body origin) (apart : param ≠ call.name)
      (captured : param ∈ call.replacement.freeNames) : MadeBy (call.renameBinder param body) call
  | renamedBody {call : Call} {param : String} {body renamedBody : Term} {origin : Provenance}
      (isLam : call.term = lam param body origin) (apart : param ≠ call.name)
      (captured : param ∈ call.replacement.freeNames) (renames : Returns (call.renameBinder param body) renamedBody) :
      MadeBy (call.inside renamedBody) call
  | func {call : Call} {func arg : Term} {label : Option Int} {origin : Provenance}
      (isApp : call.term = app func arg label origin) : MadeBy (call.inside func) call
  | arg {call : Call} {func arg : Term} {label : Option Int} {origin : Provenance}
      (isApp : call.term = app func arg label origin) : MadeBy (call.inside arg) call

/-! ## Calls come to an end -/

/-- The induction is on how the result came about, so it needs no measure: a binder renamed inside a renaming is a
renaming again, whose replacement is a single node as well. -/
theorem Returns.size_eq {call : Call} {result : Term} (returns : call.Returns result)
    (single : call.replacement.size = 1) : result.size = call.term.size := by
  induction returns with
  | replaced isUse => rw [size_stamp, single, isUse, size]
  | kept | hidden => rfl
  | entered isLam _ _ _ bodyHypothesis =>
    have sameBody := bodyHypothesis single
    rw [isLam, size, sameBody, size, term_inside]
  | avoided isLam _ _ _ _ renameHypothesis bodyHypothesis =>
    have sameRenamed := renameHypothesis rfl
    have sameBody := bodyHypothesis single
    rw [isLam, size, sameBody, term_inside, sameRenamed, renameBinder, size]
  | app isApp _ _ funcHypothesis argHypothesis =>
    have sameFunc := funcHypothesis single
    have sameArg := argHypothesis single
    rw [isApp, size, sameFunc, sameArg, term_inside, term_inside, size]
  | hole isHole => rw [isHole]

theorem MadeBy.size_lt {callee caller : Call} (made : MadeBy callee caller) : callee.term.size < caller.term.size := by
  cases made with
  | body isLam | rename isLam =>
    rw [isLam, size]
    exact Nat.lt_succ_self _
  | renamedBody isLam _ _ renames =>
    have sameSize := renames.size_eq rfl
    rw [isLam, size, term_inside, sameSize]
    exact Nat.lt_succ_self _
  | func isApp | arg isApp =>
    rw [isApp, size, term_inside]
    omega

theorem wellFounded_madeBy : WellFounded MadeBy :=
  Subrelation.wf MadeBy.size_lt (measure fun call : Call => call.term.size).wf

/-- A call returns if all calls return that it makes. -/
theorem exists_returns_of_madeBy (call : Call)
    (callees : ∀ callee, MadeBy callee call → ∃ result, callee.Returns result) : ∃ result, call.Returns result := by
  cases isTerm : call.term with
  | var other origin =>
    by_cases same : other = call.name
    · exact ⟨_, .replaced (same ▸ isTerm)⟩
    · exact ⟨_, .kept isTerm same⟩
  | lam param body origin =>
    by_cases same : param = call.name
    · exact ⟨_, .hidden (same ▸ isTerm)⟩
    · by_cases captured : param ∈ call.replacement.freeNames
      · -- which call is made second is known only when the first has returned
        obtain ⟨renamedBody, renames⟩ := callees _ (.rename isTerm same captured)
        obtain ⟨newBody, substituted⟩ := callees _ (.renamedBody isTerm same captured renames)
        exact ⟨_, .avoided isTerm same captured renames substituted⟩
      · obtain ⟨newBody, substituted⟩ := callees _ (.body isTerm same captured)
        exact ⟨_, .entered isTerm same captured substituted⟩
  | app func arg label origin =>
    obtain ⟨newFunc, inFunc⟩ := callees _ (.func isTerm)
    obtain ⟨newArg, inArg⟩ := callees _ (.arg isTerm)
    exact ⟨_, .app isTerm inFunc inArg⟩
  | hole => exact ⟨_, .hole isTerm⟩

theorem exists_returns (call : Call) : ∃ result, call.Returns result :=
  wellFounded_madeBy.induction call exists_returns_of_madeBy

/-! ## What calls return -/

/-- The result of the call according to the function that is run. -/
def value (call : Call) : Term := call.term.substitute call.name call.replacement call.mark call.source

theorem Returns.eq_value {call : Call} {result : Term} (returns : call.Returns result) : result = call.value := by
  induction returns with
  | replaced isUse => rw [value, isUse, substitute_var, if_pos rfl]
  | kept isVar apart => rw [value, isVar, substitute_var, if_neg apart]
  | hidden isLam => rw [value, isLam, substitute_lam, if_pos rfl]
  | entered isLam apart spared _ bodyHypothesis =>
    rw [value, isLam, substitute_lam, if_neg apart, if_neg spared, bodyHypothesis]
    rfl
  | avoided isLam apart captured _ _ renameHypothesis bodyHypothesis =>
    rw [value, isLam, substitute_lam, if_neg apart, if_pos captured, bodyHypothesis, renameHypothesis]
    rfl
  | app isApp _ _ funcHypothesis argHypothesis =>
    rw [value, isApp, substitute_app, funcHypothesis, argHypothesis]
    rfl
  | hole isHole => rw [value, isHole, substitute_hole]

theorem returns_iff {call : Call} {result : Term} : call.Returns result ↔ result = call.value := by
  constructor
  · exact Returns.eq_value
  · rintro rfl
    obtain ⟨result, returns⟩ := exists_returns call
    rw [← returns.eq_value]
    exact returns

end Call

/-- Substitution comes to an end on every input. Each call is made on fewer nodes than the call that makes it, also
where the body was renamed first, since a renaming keeps the number of nodes however many binders it renames in turn.
So the calls are well-founded, and every call returns one result, which is what substitution gives. Only the nesting
limit can keep it from being reached. -/
theorem substitution_comes_to_an_end :
    WellFounded Call.MadeBy ∧
    (∀ caller callee, Call.MadeBy callee caller → callee.term.size < caller.term.size) ∧
    (∀ (term : Term) (name : String) (replacement : Term) (mark : Bool) (source : Option Int) (result : Term),
      Call.Returns { term, name, replacement, mark, source } result ↔
        result = term.substitute name replacement mark source) ∧
    (∀ (body : Term) (param fresh : String),
      (body.substitute param (var fresh {}) false none).size = body.size) ∧
    (∀ (term : Term) (name : String) (replacement : Term) (mark : Bool) (source : Option Int),
      term.complete = true → replacement.complete = true → term.nesting + replacement.nesting ≤ nestingLimit →
      Guarded.substitute term name replacement mark source = .ok (term.substitute name replacement mark source)) := by
  refine ⟨Call.wellFounded_madeBy, fun _ _ made => made.size_lt, ?_, ?_, ?_⟩
  · intro term name replacement mark source result
    exact Call.returns_iff
  · intro body param fresh
    let call : Call := { term := body, name := param, replacement := var fresh {}, mark := false, source := none }
    have returns : call.Returns call.value := Call.returns_iff.2 rfl
    exact returns.size_eq rfl
  · intro term name replacement mark source complete completeReplacement shallow
    exact Guarded.substitute_of_shallow complete completeReplacement shallow name mark source

end BetaStepper.Term
