import BetaStepper.Proofs.Limits

/-! # Substitution avoids capture

On nameless terms a free name can be replaced without any renaming: the binders have no names, so nothing can be
captured. `readUnder_substitute_of_not_mem` says that substitution reads as this replacement, whatever binders it has to
rename. Read off at a single occurrence this says that the occurrence keeps its binder if it has one, and that a copy of
the replacement means what the replacement means by itself. -/

namespace BetaStepper

/-! ## Free names of nameless terms -/

namespace Nameless

/-- The term with `replacement` for every occurrence of a free name. -/
def replaceFree : Nameless → String → Nameless → Nameless
  | bound index, _, _ => bound index
  | free other, name, replacement => if other = name then replacement else free other
  | lam body, name, replacement => lam (body.replaceFree name (replacement.shift 0))
  | app func arg, name, replacement => app (func.replaceFree name replacement) (arg.replaceFree name replacement)
  | hole, _, _ => hole

theorem shift_replaceFree (cutoff : Nat) (name : String) (replacement term : Nameless) :
    (term.replaceFree name replacement).shift cutoff =
      (term.shift cutoff).replaceFree name (replacement.shift cutoff) := by
  induction term generalizing cutoff replacement with
  | bound index =>
    simp only [shift, replaceFree]
    split <;> rfl
  | free other =>
    simp only [shift, replaceFree]
    split <;> rfl
  | lam body bodyHypothesis =>
    simp only [shift, replaceFree, bodyHypothesis, shift_shift (Nat.zero_le cutoff)]
  | app func arg funcHypothesis argHypothesis => simp only [shift, replaceFree, funcHypothesis, argHypothesis]
  | hole => rfl

theorem replaceFree_ofName (scope : List String) (name other : String) (replacement : Nameless) :
    (ofName scope other).replaceFree name replacement =
      if other = name ∧ name ∉ scope then replacement else ofName scope other := by
  rw [ofName]
  cases found : scope.idxOf? other with
  | some distance =>
    have member : other ∈ scope := List.isSome_idxOf?.1 (by rw [found]; rfl)
    have bound : ¬ (other = name ∧ name ∉ scope) := by
      rintro ⟨rfl, absent⟩
      exact absent member
    simp only [replaceFree, if_neg bound]
  | none =>
    have absent : other ∉ scope := List.idxOf?_eq_none_iff.1 found
    by_cases same : other = name
    · subst same
      simp [replaceFree, absent]
    · simp [replaceFree, same]

/-- The part of the term at the end of a path. -/
def at? : Nameless → Path → Option Nameless
  | term, [] => some term
  | lam body, .body :: path => body.at? path
  | app func _, .func :: path => func.at? path
  | app _ arg, .arg :: path => arg.at? path
  | _, _ :: _ => none

@[simp] theorem at?_nil (term : Nameless) : term.at? [] = some term := by
  cases term <;> rfl

/-- A replacement without indices that point outside is the same at every depth. -/
theorem at?_replaceFree {replacement : Nameless} (closed : replacement.shift 0 = replacement) (name : String)
    {term part : Nameless} {path : Path} (found : term.at? path = some part) :
    (term.replaceFree name replacement).at? path = some (part.replaceFree name replacement) := by
  induction path generalizing term with
  | nil =>
    rw [at?_nil, Option.some.injEq] at found
    rw [found, at?_nil]
  | cons turn path pathHypothesis =>
    cases term <;> cases turn <;> first | cases found | skip
    case lam.body =>
      rw [replaceFree, closed]
      exact pathHypothesis found
    case app.func => exact pathHypothesis found
    case app.arg => exact pathHypothesis found

end Nameless

namespace Term

open Nameless (ofName)

/-! ## Readings -/

theorem readWith_replaceFree (name : String) (replacement : Nameless) (valuation : String → Nameless) (term : Term) :
    term.readWith (fun other => (valuation other).replaceFree name replacement) =
      (term.readWith valuation).replaceFree name replacement := by
  induction term generalizing replacement valuation with
  | var | hole => rfl
  | lam param body _ bodyHypothesis =>
    have entered : enter param (fun other => (valuation other).replaceFree name replacement) =
        fun other => (enter param valuation other).replaceFree name (replacement.shift 0) := by
      funext other
      by_cases same : other = param
      · simp [enter, same, Nameless.replaceFree]
      · simp [enter, same, Nameless.shift_replaceFree]
    simp only [readWith, entered, bodyHypothesis, Nameless.replaceFree]
  | app func arg _ _ funcHypothesis argHypothesis =>
    simp only [readWith, funcHypothesis, argHypothesis, Nameless.replaceFree]

/-- Substitution for a name that is free reads as its replacement, under whatever binders the term stands. -/
theorem readUnder_substitute_of_not_mem {scope : List String} {name : String} (isFree : name ∉ scope)
    (term replacement : Term) (mark : Bool) (source : Option Int) :
    (term.substitute name replacement mark source).readUnder scope =
      (term.readUnder scope).replaceFree name (replacement.readUnder scope) := by
  simp only [readUnder_eq_readWith, readWith_substitute, ← readWith_replaceFree]
  congr 1
  funext other
  rw [Nameless.replaceFree_ofName, Function.update_apply]
  simp [isFree]

/-- A term that stands by itself has no indices that point outside. -/
theorem shift_readUnder {scope : List String} {cutoff : Nat} (inside : scope.length ≤ cutoff) (term : Term) :
    (term.readUnder scope).shift cutoff = term.readUnder scope := by
  induction term generalizing scope cutoff with
  | var name _ =>
    rw [readUnder, ofName]
    cases found : scope.idxOf? name with
    | none => rfl
    | some distance =>
      obtain ⟨low, -⟩ := List.findIdx?_eq_some_iff_getElem.1 found
      simp only [Nameless.shift, if_pos (Nat.lt_of_lt_of_le low inside)]
  | lam param body _ bodyHypothesis =>
    have insideBody : (param :: scope).length ≤ cutoff + 1 := Nat.succ_le_succ inside
    simp only [readUnder, Nameless.shift, bodyHypothesis insideBody]
  | app func arg _ _ funcHypothesis argHypothesis =>
    simp only [readUnder, Nameless.shift, funcHypothesis inside, argHypothesis inside]
  | hole => rfl

/-! ## Occurrences -/

/-- The binders around the end of a path, innermost first, if the term stands below those in `scope`. -/
def scopeAt : Term → List String → Path → List String
  | _, scope, [] => scope
  | lam param body _, scope, .body :: path => body.scopeAt (param :: scope) path
  | app func _ _ _, scope, .func :: path => func.scopeAt scope path
  | app _ arg _ _, scope, .arg :: path => arg.scopeAt scope path
  | _, scope, _ :: _ => scope

@[simp] theorem scopeAt_nil (term : Term) (scope : List String) : term.scopeAt scope [] = scope := by
  cases term <;> rfl

theorem at?_readUnder (scope : List String) (term : Term) (path : Path) :
    (term.readUnder scope).at? path = (term.at? path).map (·.readUnder (term.scopeAt scope path)) := by
  induction path generalizing term scope with
  | nil => simp
  | cons turn path pathHypothesis =>
    cases term with
    | var name _ =>
      rw [readUnder, ofName]
      split <;> cases turn <;> rfl
    | lam param body _ =>
      cases turn with
      | body => exact pathHypothesis (param :: scope) body
      | func | arg => rfl
    | app func arg _ _ =>
      cases turn with
      | body => rfl
      | func => exact pathHypothesis scope func
      | arg => exact pathHypothesis scope arg
    | hole => cases turn <;> rfl

/-- Substitution reads as the replacement of a free name. At each occurrence of a variable the result refers to the same
binder or to the same free name as before, and a copy of the replacement reads as the replacement does by itself. Only
the nesting limit can keep substitution from giving its result. -/
theorem substitution_avoids_capture (term : Term) (name : String) (replacement : Term) (mark : Bool)
    (source : Option Int) :
    let result := term.substitute name replacement mark source
    result.nameless = term.nameless.replaceFree name replacement.nameless ∧
    (∀ path other origin, term.at? path = some (var other origin) →
      ∃ node, result.at? path = some node ∧
        node.readUnder (result.scopeAt [] path) =
          if other = name ∧ name ∉ term.scopeAt [] path then replacement.nameless
          else ofName (term.scopeAt [] path) other) ∧
    (term.complete = true → replacement.complete = true → term.nesting + replacement.nesting ≤ nestingLimit →
      Guarded.substitute term name replacement mark source = .ok result) := by
  intro result
  have reads : result.nameless = term.nameless.replaceFree name replacement.nameless :=
    readUnder_substitute_of_not_mem List.not_mem_nil term replacement mark source
  refine ⟨reads, ?_, ?_⟩
  · intro path other origin found
    have closed : replacement.nameless.shift 0 = replacement.nameless := shift_readUnder (Nat.le_refl 0) replacement
    have before : term.nameless.at? path = some (ofName (term.scopeAt [] path) other) := by
      rw [nameless, at?_readUnder, found]
      rfl
    have after := Nameless.at?_replaceFree closed name before
    rw [← reads, nameless, at?_readUnder, Option.map_eq_some_iff] at after
    obtain ⟨node, foundNode, readsNode⟩ := after
    exact ⟨node, foundNode, by rw [readsNode, Nameless.replaceFree_ofName]⟩
  · intro complete completeReplacement shallow
    exact Guarded.substitute_of_shallow complete completeReplacement shallow name mark source

end Term

end BetaStepper
