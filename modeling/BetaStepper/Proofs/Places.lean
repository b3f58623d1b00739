import BetaStepper.Proofs.Erasure

/-! # Places in a term

A path leads from the root of a term to one of its nodes. `redexPlaces` lists the redexes together with the paths to
them, in the order of `redexes`, and contraction is replacement at the first of these places that carries the label:
`contract?_eq` and `redexLabelled?_eq` make both searches a `find?` over the same list. -/

namespace BetaStepper

/-- The way from a node to one of its children. -/
inductive Turn where
  | body
  | func
  | arg
deriving DecidableEq

abbrev Path := List Turn

namespace Term

def at? : Term → Path → Option Term
  | term, [] => some term
  | lam _ body _, .body :: path => body.at? path
  | app func _ _ _, .func :: path => func.at? path
  | app _ arg _ _, .arg :: path => arg.at? path
  | _, _ :: _ => none

/-- The term with `node` at the end of a path. A path that leads out of the term changes nothing. -/
def replaceAt : Term → Path → Term → Term
  | _, [], node => node
  | lam param body origin, .body :: path, node => lam param (body.replaceAt path node) origin
  | app func arg label origin, .func :: path, node => app (func.replaceAt path node) arg label origin
  | app func arg label origin, .arg :: path, node => app func (arg.replaceAt path node) label origin
  | term, _ :: _, _ => term

@[simp] theorem at?_nil (term : Term) : term.at? [] = some term := by
  cases term <;> rfl

@[simp] theorem replaceAt_nil (term node : Term) : term.replaceAt [] node = node := by
  cases term <;> rfl

/-- A path leads from the second term to `node`: the valid paths, turn by turn. -/
inductive Leads (node : Term) : Term → Path → Prop where
  | here : Leads node node []
  | body {param : String} {body : Term} {origin : Provenance} {path : Path} :
      Leads node body path → Leads node (lam param body origin) (.body :: path)
  | func {func arg : Term} {label : Option Int} {origin : Provenance} {path : Path} :
      Leads node func path → Leads node (app func arg label origin) (.func :: path)
  | arg {func arg : Term} {label : Option Int} {origin : Provenance} {path : Path} :
      Leads node arg path → Leads node (app func arg label origin) (.arg :: path)

theorem leads_of_at? {term node : Term} {path : Path} (found : term.at? path = some node) :
    Leads node term path := by
  induction path generalizing term with
  | nil =>
    rw [at?_nil, Option.some.injEq] at found
    exact found ▸ .here
  | cons turn path pathHypothesis =>
    cases term <;> cases turn <;> first | cases found | skip
    case lam.body => exact .body (pathHypothesis found)
    case app.func => exact .func (pathHypothesis found)
    case app.arg => exact .arg (pathHypothesis found)

theorem bare_replaceAt (term : Term) (path : Path) (node : Term) :
    (term.replaceAt path node).bare = term.bare.replaceAt path node.bare := by
  induction path generalizing term with
  | nil => simp
  | cons turn path pathHypothesis =>
    cases term <;> cases turn <;> first | rfl | simp only [replaceAt, bare, pathHypothesis]

end Term

/-! ## The places of redexes -/

structure Place where
  path : Path
  redex : Redex

namespace Place

/-- The same place seen from the node above, which leads to it by `turn`. -/
def below (turn : Turn) (place : Place) : Place := { place with path := turn :: place.path }

@[simp] theorem below_path (turn : Turn) (place : Place) : (place.below turn).path = turn :: place.path := rfl

@[simp] theorem below_redex (turn : Turn) (place : Place) : (place.below turn).redex = place.redex := rfl

def carries (label : Option Int) (place : Place) : Bool := place.redex.label = label

theorem carries_comp_below (label : Option Int) (turn : Turn) :
    carries label ∘ below turn = carries label := rfl

def bare (place : Place) : Place where
  path := place.path
  redex :=
    { param := place.redex.param, body := place.redex.body.bare, binder := {}, arg := place.redex.arg.bare,
      label := none, origin := {} }

end Place

namespace Term

/-- The redexes of the term in pre-order, each with the path to it. -/
def redexPlaces : Term → List Place
  | var _ _ => []
  | lam _ body _ => body.redexPlaces.map (.below .body)
  | app func arg label origin =>
    (app func arg label origin).redexHere?.toList.map (Place.mk []) ++
      (func.redexPlaces.map (.below .func) ++ arg.redexPlaces.map (.below .arg))
  | hole => []

theorem map_redex_redexPlaces (term : Term) : term.redexPlaces.map Place.redex = term.redexes := by
  induction term with
  | var | hole => rfl
  | lam _ _ _ bodyHypothesis => simp [redexPlaces, redexes, Function.comp_def, ← bodyHypothesis]
  | app _ _ _ _ funcHypothesis argHypothesis =>
    simp [redexPlaces, redexes, Function.comp_def, ← funcHypothesis, ← argHypothesis]

theorem length_redexPlaces (term : Term) : term.redexPlaces.length = term.redexCount := by
  rw [redexCount, ← map_redex_redexPlaces, List.length_map]

theorem term_of_redexHere? {term : Term} {redex : Redex} (found : term.redexHere? = some redex) :
    redex.term = term := by
  unfold redexHere? at found
  split at found
  · cases found
    rfl
  · cases found

theorem at?_of_mem_redexPlaces {term : Term} {place : Place} (member : place ∈ term.redexPlaces) :
    term.at? place.path = some place.redex.term := by
  induction term generalizing place with
  | var | hole => cases member
  | lam _ _ _ bodyHypothesis =>
    obtain ⟨inner, innerMember, rfl⟩ := List.mem_map.1 member
    exact bodyHypothesis innerMember
  | app func arg label origin funcHypothesis argHypothesis =>
    rcases List.mem_append.1 member with here | inside
    · obtain ⟨_, found, rfl⟩ := List.mem_map.1 here
      rw [at?_nil, term_of_redexHere? (Option.mem_toList.1 found)]
    · rcases List.mem_append.1 inside with inFunc | inArg
      · obtain ⟨inner, innerMember, rfl⟩ := List.mem_map.1 inFunc
        exact funcHypothesis innerMember
      · obtain ⟨inner, innerMember, rfl⟩ := List.mem_map.1 inArg
        exact argHypothesis innerMember

/-- The places of redexes are those of the bare term, and the redexes at them are alike. -/
theorem redexPlaces_bare (term : Term) : term.bare.redexPlaces = term.redexPlaces.map Place.bare := by
  have below (turn : Turn) (places : List Place) :
      (places.map Place.bare).map (.below turn) = (places.map (.below turn)).map Place.bare := by
    rw [List.map_map, List.map_map]
    rfl
  induction term with
  | var | hole => rfl
  | lam _ _ _ bodyHypothesis => simp only [bare, redexPlaces, bodyHypothesis, below]
  | app func arg _ _ funcHypothesis argHypothesis =>
    simp only [bare, redexPlaces, funcHypothesis, argHypothesis, below, List.map_append]
    cases func <;> rfl

/-! ## Searching by label -/

/-- The first place whose redex carries the label. -/
def labelledPlace? (label : Option Int) (term : Term) : Option Place := term.redexPlaces.find? (Place.carries label)

theorem labelledPlace?_lam (label : Option Int) (param : String) (body : Term) (origin : Provenance) :
    (lam param body origin).labelledPlace? label = (body.labelledPlace? label).map (.below .body) := by
  rw [labelledPlace?, redexPlaces, List.find?_map, Place.carries_comp_below, labelledPlace?]

theorem labelledPlace?_app (label : Option Int) (func arg : Term) (own : Option Int) (origin : Provenance) :
    (app func arg own origin).labelledPlace? label =
      match (app func arg own origin).redexHere?.filter (·.label = label) with
      | some redex => some ⟨[], redex⟩
      | none =>
        match func.labelledPlace? label with
        | some place => some (place.below .func)
        | none => (arg.labelledPlace? label).map (.below .arg) := by
  simp only [labelledPlace?, redexPlaces, List.find?_append, List.find?_map, Place.carries_comp_below]
  -- what the search finds first: the application itself, then a redex of the function
  cases (app func arg own origin).redexHere? with
  | none => cases func.redexPlaces.find? (Place.carries label) <;> simp
  | some redex =>
    by_cases carried : redex.label = label
    · simp [Place.carries, Option.filter, carried]
    · cases func.redexPlaces.find? (Place.carries label) <;> simp [Place.carries, Option.filter, carried]

theorem redexLabelled?_eq (label : Option Int) (term : Term) :
    term.redexLabelled? label = (term.labelledPlace? label).map Place.redex := by
  induction term with
  | var | hole => rfl
  | lam _ _ _ bodyHypothesis =>
    simp [redexLabelled?, labelledPlace?_lam, bodyHypothesis, Function.comp_def]
  | app func arg own origin funcHypothesis argHypothesis =>
    rw [redexLabelled?, labelledPlace?_app, funcHypothesis, argHypothesis]
    cases (app func arg own origin).redexHere?.filter (·.label = label) with
    | some redex => rfl
    | none => cases func.labelledPlace? label <;> simp [Function.comp_def]

theorem contract?_eq (label : Option Int) (term : Term) :
    term.contract? label =
      (term.labelledPlace? label).map fun place => term.replaceAt place.path (place.redex.contractum label) := by
  induction term with
  | var | hole => rfl
  | lam _ _ _ bodyHypothesis =>
    simp [contract?, labelledPlace?_lam, bodyHypothesis, Function.comp_def, replaceAt]
  | app func arg own origin funcHypothesis argHypothesis =>
    rw [contract?, labelledPlace?_app, funcHypothesis, argHypothesis]
    cases (app func arg own origin).redexHere?.filter (·.label = label) with
    | some redex => simp
    | none => cases func.labelledPlace? label <;> simp [Function.comp_def, replaceAt]

end Term

end BetaStepper
