import BetaStepper.Links
import BetaStepper.Proofs.Uses

/-! # Tracing the copies of an argument

`Traced source shape term roots` says that the marked nodes of `term` are exactly the copies of one argument: whole
subterms of the given shape at the paths `roots`, every node of them marked as coming from `source`, and no mark
anywhere else. Substituting into a term without marks makes such a term, with the copies where the name was used, and
neither replacing a node of an unmarked term nor numbering disturbs it. All that linking reports is read off it. -/

namespace BetaStepper.Term

/-! ## Terms with one provenance -/

/-- Every node has the given provenance. A hole has none, which counts as the empty one. -/
def Uniform (origin : Provenance) : Term → Prop
  | var _ own => own = origin
  | lam _ body own => own = origin ∧ body.Uniform origin
  | app func arg _ own => own = origin ∧ func.Uniform origin ∧ arg.Uniform origin
  | hole => {} = origin

theorem Uniform.origin_eq {origin : Provenance} {term : Term} (uniform : term.Uniform origin) :
    term.origin = origin := by
  cases term with
  | var | hole => exact uniform
  | lam | app => exact uniform.1

theorem Uniform.at? {origin : Provenance} {term node : Term} {path : Path} (uniform : term.Uniform origin)
    (found : term.at? path = some node) : node.Uniform origin := by
  induction leads_of_at? found with
  | here => exact uniform
  | body _ bodyHypothesis => exact bodyHypothesis uniform.2 found
  | func _ funcHypothesis => exact funcHypothesis uniform.2.1 found
  | arg _ argHypothesis => exact argHypothesis uniform.2.2 found

theorem uniform_clearMarks (term : Term) : term.clearMarks.Uniform {} := by
  induction term with
  | var | hole => rfl
  | lam _ _ _ bodyHypothesis => exact ⟨rfl, bodyHypothesis⟩
  | app _ _ _ _ funcHypothesis argHypothesis => exact ⟨rfl, funcHypothesis, argHypothesis⟩

theorem Uniform.numberFrom {origin : Provenance} {term : Term} (uniform : term.Uniform origin) (next : Nat) :
    (term.numberFrom next).1.Uniform origin := by
  induction term generalizing next with
  | var | hole => exact uniform
  | lam _ _ _ bodyHypothesis => exact ⟨uniform.1, bodyHypothesis uniform.2 next⟩
  | app _ _ _ _ funcHypothesis argHypothesis =>
    exact ⟨uniform.1, funcHypothesis uniform.2.1 _, argHypothesis uniform.2.2 _⟩

theorem uniform_prepared (term : Term) : term.prepared.Uniform {} := (uniform_clearMarks term).numberFrom 1

/-- A copy of an unmarked term has one provenance throughout. -/
theorem Uniform.stamp {term : Term} (uniform : term.Uniform {}) (complete : term.complete = true) (mark : Bool)
    (source : Option Int) : (term.stamp mark source).Uniform { marked := mark, source := source } := by
  have stamped : Provenance.stamp mark source {} = { marked := mark, source := source } := by
    simp [Provenance.stamp]
  induction term with
  | var =>
    cases uniform
    exact stamped
  | lam _ _ _ bodyHypothesis =>
    obtain ⟨rfl, uniformBody⟩ := uniform
    exact ⟨stamped, bodyHypothesis uniformBody complete⟩
  | app _ _ _ _ funcHypothesis argHypothesis =>
    obtain ⟨rfl, uniformFunc, uniformArg⟩ := uniform
    simp only [Term.complete, Bool.and_eq_true] at complete
    exact ⟨stamped, funcHypothesis uniformFunc complete.1, argHypothesis uniformArg complete.2⟩
  | hole => cases complete

/-- Renaming marks nothing, although it is a substitution too. -/
theorem Uniform.rename {term : Term} (uniform : term.Uniform {}) (name fresh : String) :
    (term.rename name fresh).Uniform {} := by
  rw [Term.rename]
  induction term using renamingInduction generalizing name fresh with
  | var other origin =>
    rw [substitute_var]
    split
    · rfl
    · exact uniform
  | lam param body origin bodyHypothesis renamedHypothesis =>
    obtain ⟨rfl, uniformBody⟩ := uniform
    rw [substitute_lam]
    split
    · exact ⟨rfl, uniformBody⟩
    · split
      · exact ⟨rfl, renamedHypothesis _ _ (bodyHypothesis uniformBody _ _) _ _⟩
      · exact ⟨rfl, bodyHypothesis uniformBody _ _⟩
  | app func arg label origin funcHypothesis argHypothesis =>
    rw [substitute_app]
    exact ⟨uniform.1, funcHypothesis uniform.2.1 _ _, argHypothesis uniform.2.2 _ _⟩
  | hole => rw [substitute_hole]; rfl

/-! ## Traced terms -/

inductive Traced (source : Option Int) (shape : Term) : Term → List Path → Prop where
  | copy {term : Term} (marked : term.Uniform { marked := true, source := source }) (alike : term.bare = shape) :
      Traced source shape term [[]]
  | var (name : String) : Traced source shape (var name {}) []
  | lam (param : String) {body : Term} {roots : List Path} :
      Traced source shape body roots → Traced source shape (lam param body {}) (roots.map (.body :: ·))
  | app {func arg : Term} {funcRoots argRoots : List Path} (label : Option Int) :
      Traced source shape func funcRoots → Traced source shape arg argRoots →
      Traced source shape (app func arg label {}) (funcRoots.map (.func :: ·) ++ argRoots.map (.arg :: ·))
  | hole : Traced source shape hole []

variable {source : Option Int} {shape : Term}

theorem Uniform.traced {term : Term} (uniform : term.Uniform {}) : Traced source shape term [] := by
  induction term with
  | var name =>
    cases uniform
    exact .var name
  | lam param _ _ bodyHypothesis =>
    obtain ⟨rfl, uniformBody⟩ := uniform
    exact .lam param (bodyHypothesis uniformBody)
  | app _ _ label _ funcHypothesis argHypothesis =>
    obtain ⟨rfl, uniformFunc, uniformArg⟩ := uniform
    exact .app label (funcHypothesis uniformFunc) (argHypothesis uniformArg)
  | hole => exact .hole

/-- Substitution leaves one copy for each use of the name, in the same order and at the same place. -/
theorem traced_substitute {term replacement : Term} (clean : term.Uniform {})
    (cleanReplacement : replacement.Uniform {}) (complete : replacement.complete = true) (name : String)
    (source : Option Int) :
    Traced source replacement.bare (term.substitute name replacement true source) (term.usePaths name) := by
  induction term using renamingInduction with
  | var other origin =>
    cases clean
    rw [substitute_var, usePaths]
    split
    · exact .copy (cleanReplacement.stamp complete true source) (bare_stamp true source replacement)
    · exact .var other
  | lam param body origin bodyHypothesis renamedHypothesis =>
    obtain ⟨rfl, cleanBody⟩ := clean
    rw [substitute_lam, usePaths]
    split
    · exact Uniform.traced ⟨rfl, cleanBody⟩
    next apart =>
      split
      · -- the uses stand where they stood before the binder was renamed
        obtain ⟨_, _, ne⟩ := renamed_apart param body name replacement
        rw [← usePaths_rename (Ne.symm apart) (Ne.symm ne) body]
        exact .lam _ (renamedHypothesis _ _ (cleanBody.rename _ _))
      · exact .lam param (bodyHypothesis cleanBody)
  | app func arg label origin funcHypothesis argHypothesis =>
    obtain ⟨rfl, cleanFunc, cleanArg⟩ := clean
    rw [substitute_app, usePaths]
    exact .app label (funcHypothesis cleanFunc) (argHypothesis cleanArg)
  | hole => rw [substitute_hole]; exact .hole

theorem Traced.replaceAt {term old node : Term} {path : Path} {roots : List Path}
    (traced : Traced source shape node roots) (clean : term.Uniform {}) (valid : term.at? path = some old) :
    Traced source shape (term.replaceAt path node) (roots.map (path ++ ·)) := by
  have longer (turn : Turn) (path : Path) :
      roots.map (turn :: path ++ ·) = (roots.map (path ++ ·)).map (turn :: ·) := by
    simp [Function.comp_def]
  -- the copies lie in the new node, and what stands beside the path is clean
  induction leads_of_at? valid with
  | here => simpa using traced
  | body _ bodyHypothesis =>
    obtain ⟨rfl, cleanBody⟩ := clean
    rw [longer]
    exact .lam _ (bodyHypothesis cleanBody valid)
  | func _ funcHypothesis =>
    obtain ⟨rfl, cleanFunc, cleanArg⟩ := clean
    rw [longer]
    simpa [Term.replaceAt] using Traced.app _ (funcHypothesis cleanFunc valid) cleanArg.traced
  | arg _ argHypothesis =>
    obtain ⟨rfl, cleanFunc, cleanArg⟩ := clean
    rw [longer]
    simpa [Term.replaceAt] using Traced.app _ cleanFunc.traced (argHypothesis cleanArg valid)

theorem Traced.numberFrom {term : Term} {roots : List Path} (traced : Traced source shape term roots) (next : Nat) :
    Traced source shape (term.numberFrom next).1 roots := by
  induction traced generalizing next with
  | copy marked alike => exact .copy (marked.numberFrom next) (by rw [bare_numberFrom, alike])
  | var name => exact .var name
  | lam param _ bodyHypothesis => exact .lam param (bodyHypothesis next)
  | app _ _ _ funcHypothesis argHypothesis => exact .app _ (funcHypothesis _) (argHypothesis _)
  | hole => exact .hole

/-! ## What a traced term tells -/

theorem markedRoots_of_marked {term : Term} (marked : term.origin.marked = true) : term.markedRoots = [term] := by
  cases term with
  | var | lam | app =>
    rw [origin] at marked
    rw [markedRoots, if_pos marked]
  | hole => cases marked

/-- The outermost marked nodes are those at the roots, in the same order. -/
theorem Traced.map_markedRoots {term : Term} {roots : List Path} (traced : Traced source shape term roots) :
    term.markedRoots.map some = roots.map term.at? := by
  induction traced with
  | copy marked _ => rw [markedRoots_of_marked (by rw [marked.origin_eq])]; simp
  | var | hole => rfl
  | lam _ _ bodyHypothesis =>
    rw [List.map_map]
    exact bodyHypothesis
  | app _ _ _ funcHypothesis argHypothesis =>
    rw [List.map_append, List.map_map, List.map_map, markedRoots, if_neg Bool.false_ne_true, List.map_append,
      funcHypothesis, argHypothesis]
    rfl

theorem Traced.of_mem_markedRoots {term node : Term} {roots : List Path} (traced : Traced source shape term roots)
    (member : node ∈ term.markedRoots) :
    node.origin = { marked := true, source := source } ∧ node.bare = shape := by
  induction traced with
  | copy marked alike =>
    rw [markedRoots_of_marked (by rw [marked.origin_eq]), List.mem_singleton] at member
    subst member
    exact ⟨marked.origin_eq, alike⟩
  | var | hole => cases member
  | lam _ _ bodyHypothesis => exact bodyHypothesis member
  | app _ _ _ funcHypothesis argHypothesis =>
    rw [markedRoots, if_neg Bool.false_ne_true] at member
    rcases List.mem_append.1 member with inFunc | inArg
    · exact funcHypothesis inFunc
    · exact argHypothesis inArg

theorem Traced.copiesFrom_eq {term : Term} {roots : List Path} (traced : Traced source shape term roots) :
    term.copiesFrom source = term.markedRoots := by
  rw [copiesFrom, List.filter_eq_self]
  intro node member
  rw [(traced.of_mem_markedRoots member).1]
  exact decide_eq_true rfl

theorem Traced.source_of_mem_substitutions {term : Term} {roots : List Path} {group : Option Int × List Term}
    (traced : Traced source shape term roots) (member : group ∈ term.substitutions) : group.1 = source := by
  obtain ⟨key, keyMember, rfl⟩ := List.mem_map.1 member
  obtain ⟨node, nodeMember, rfl⟩ := List.mem_map.1 (List.mem_eraseDups.1 keyMember)
  rw [(traced.of_mem_markedRoots nodeMember).1]

/-- A node is marked exactly if it lies at or below a root. -/
theorem Traced.marked_iff {term node : Term} {roots : List Path} {path : Path}
    (traced : Traced source shape term roots) (found : term.at? path = some node) :
    node.origin.marked = true ↔ ∃ root ∈ roots, root <+: path := by
  induction traced generalizing path with
  | copy marked _ => simp [(marked.at? found).origin_eq]
  | var | hole =>
    cases leads_of_at? found
    simp [origin]
  | lam _ _ bodyHypothesis =>
    cases leads_of_at? found with
    | here => simp [origin]
    | body => simpa [List.cons_prefix_cons] using bodyHypothesis found
  | app _ _ _ funcHypothesis argHypothesis =>
    cases leads_of_at? found with
    | here => simp [origin, or_and_right, exists_or]
    | func => simpa [or_and_right, exists_or, List.cons_prefix_cons] using funcHypothesis found
    | arg => simpa [or_and_right, exists_or, List.cons_prefix_cons] using argHypothesis found

theorem Traced.source_eq {term node : Term} {roots : List Path} {path : Path}
    (traced : Traced source shape term roots) (found : term.at? path = some node)
    (marked : node.origin.marked = true) : node.origin.source = source := by
  induction traced generalizing path with
  | copy uniform _ => rw [(uniform.at? found).origin_eq]
  | var | hole =>
    cases leads_of_at? found
    cases marked
  | lam _ _ bodyHypothesis =>
    cases leads_of_at? found with
    | here => cases marked
    | body => exact bodyHypothesis found
  | app _ _ _ funcHypothesis argHypothesis =>
    cases leads_of_at? found with
    | here => cases marked
    | func => exact funcHypothesis found
    | arg => exact argHypothesis found

end BetaStepper.Term
