import BetaStepper.Guarded
import BetaStepper.Proofs.Numbering

/-! # Guards that do not fire

A traversal of a complete term that nests no deeper than the limit meets nothing, and for the traversals that visit
every node this is also necessary. So nothing that a successful step has visited need be feared later:
`Guarded.fullLinks_of_step` says that the links of such a step can always be looked up. Contraction is the exception,
since it copies the argument further inside: `Visit.contract?_of_shallow` asks for twice the room. -/

namespace BetaStepper

theorem bind_eq_ok {ε α β : Type} {first : Except ε α} {next : α → Except ε β} {result : β} :
    (first >>= next) = .ok result ↔ ∃ value, first = .ok value ∧ next value = .ok result := by
  cases first with
  | error fault => simp [bind, Except.bind]
  | ok value => simp [bind, Except.bind]

namespace Term

/-! ## Terms that fit -/

/-- No holes, and no more nesting than there is room for. -/
structure Fits (room : Nat) (term : Term) : Prop where
  complete : term.complete = true
  nesting : term.nesting ≤ room

theorem fits_lam {room : Nat} {param : String} {body : Term} {origin : Provenance} :
    (lam param body origin).Fits room ↔ ∃ rest, room = rest + 1 ∧ body.Fits rest := by
  constructor
  · rintro ⟨complete, nesting⟩
    rw [Term.nesting] at nesting
    exact ⟨room - 1, by omega, complete, by omega⟩
  · rintro ⟨rest, rfl, complete, nesting⟩
    exact ⟨complete, Nat.succ_le_succ nesting⟩

theorem fits_app {room : Nat} {func arg : Term} {label : Option Int} {origin : Provenance} :
    (app func arg label origin).Fits room ↔ func.Fits room ∧ ∃ rest, room = rest + 1 ∧ arg.Fits rest := by
  constructor
  · rintro ⟨complete, nesting⟩
    rw [Term.complete, Bool.and_eq_true] at complete
    rw [Term.nesting] at nesting
    exact ⟨⟨complete.1, by omega⟩, room - 1, by omega, complete.2, by omega⟩
  · rintro ⟨⟨completeFunc, nestingFunc⟩, rest, rfl, completeArg, nestingArg⟩
    exact ⟨by rw [Term.complete, completeFunc, completeArg]; rfl, by rw [Term.nesting]; omega⟩

theorem not_fits_hole {room : Nat} : ¬ hole.Fits room := fun fits => by cases fits.complete

theorem Fits.mono {room more : Nat} {term : Term} (fits : term.Fits room) (ordered : room ≤ more) : term.Fits more :=
  ⟨fits.complete, Nat.le_trans fits.nesting ordered⟩

theorem Fits.at? {room : Nat} {term node : Term} {path : Path} (fits : term.Fits room)
    (found : term.at? path = some node) : node.Fits room := by
  induction leads_of_at? found with
  | here => exact fits
  | body _ bodyHypothesis =>
    obtain ⟨rest, rfl, fitsBody⟩ := fits_lam.1 fits
    exact bodyHypothesis (fitsBody.mono (Nat.le_succ rest)) found
  | func _ funcHypothesis => exact funcHypothesis (fits_app.1 fits).1 found
  | arg _ argHypothesis =>
    obtain ⟨_, rest, rfl, fitsArg⟩ := fits_app.1 fits
    exact argHypothesis (fitsArg.mono (Nat.le_succ rest)) found

theorem complete_bare (term : Term) : term.bare.complete = term.complete := by
  induction term with
  | var | hole => rfl
  | lam _ _ _ bodyHypothesis => exact bodyHypothesis
  | app _ _ _ _ funcHypothesis argHypothesis => simp only [bare, complete, funcHypothesis, argHypothesis]

theorem nesting_bare (term : Term) : term.bare.nesting = term.nesting := by
  induction term with
  | var | hole => rfl
  | lam _ _ _ bodyHypothesis => simp only [bare, nesting, bodyHypothesis]
  | app _ _ _ _ funcHypothesis argHypothesis => simp only [bare, nesting, funcHypothesis, argHypothesis]

theorem Fits.of_bare_eq {room : Nat} {term other : Term} (fits : term.Fits room) (same : term.bare = other.bare) :
    other.Fits room := by
  constructor
  · rw [← complete_bare, ← same, complete_bare]
    exact fits.complete
  · rw [← nesting_bare, ← same, nesting_bare]
    exact fits.nesting

theorem complete_arg_of_at? {term : Term} {path : Path} {redex : Redex} (complete : term.complete = true)
    (found : term.at? path = some redex.term) : redex.arg.complete = true := by
  have fits : term.Fits term.nesting := ⟨complete, Nat.le_refl _⟩
  obtain ⟨_, _, _, fitsArg⟩ := fits_app.1 (fits.at? found)
  exact fitsArg.complete

end Term

/-! ## Traversals -/

namespace Visit

open Term (fits_lam fits_app not_fits_hole)

theorem descend_eq_ok {room : Nat} {inner : Nat → Outcome} :
    descend room inner = .ok () ↔ ∃ rest, room = rest + 1 ∧ inner rest = .ok () := by
  cases room <;> simp [descend]

theorem everywhere_eq_ok (fault : Fault) (room : Nat) (term : Term) :
    everywhere (.error fault) room term = .ok () ↔ term.Fits room := by
  induction term generalizing room with
  | var => exact ⟨fun _ => ⟨rfl, Nat.zero_le _⟩, fun _ => rfl⟩
  | lam _ body _ bodyHypothesis => simp only [everywhere, descend_eq_ok, fits_lam, bodyHypothesis]
  | app func arg _ _ funcHypothesis argHypothesis =>
    rw [everywhere, bind_eq_ok, fits_app]
    simp only [descend_eq_ok, funcHypothesis, argHypothesis, exists_and_left]
    constructor
    · rintro ⟨fitsFunc, _, fitsArg⟩
      exact ⟨fitsFunc, fitsArg⟩
    · rintro ⟨fitsFunc, fitsArg⟩
      exact ⟨fitsFunc, (), fitsArg⟩
  | hole =>
    constructor
    · intro impossible
      cases impossible
    · intro fits
      exact absurd fits not_fits_hole

theorem lenient_of_fits {room : Nat} {term : Term} (fits : term.Fits room) : lenient room term = .ok () := by
  induction term generalizing room with
  | var | hole => rfl
  | lam _ body _ bodyHypothesis =>
    obtain ⟨rest, rfl, fitsBody⟩ := fits_lam.1 fits
    exact bodyHypothesis fitsBody
  | app func arg _ _ funcHypothesis argHypothesis =>
    obtain ⟨fitsFunc, rest, rfl, fitsArg⟩ := fits_app.1 fits
    have inFunc : everywhere (.ok ()) (rest + 1) func = .ok () := funcHypothesis fitsFunc
    rw [lenient, everywhere, inFunc]
    exact argHypothesis fitsArg

theorem redexLabelled?_of_fits {room : Nat} {term : Term} (fits : term.Fits room) (label : Option Int) :
    redexLabelled? label room term = .ok () := by
  induction term generalizing room with
  | var | hole => rfl
  | lam _ body _ bodyHypothesis =>
    obtain ⟨rest, rfl, fitsBody⟩ := fits_lam.1 fits
    exact bodyHypothesis fitsBody
  | app func arg own _ funcHypothesis argHypothesis =>
    obtain ⟨fitsFunc, rest, rfl, fitsArg⟩ := fits_app.1 fits
    rw [redexLabelled?, funcHypothesis fitsFunc]
    split
    · rfl
    · simp only [bind, Except.bind]
      split
      · rfl
      · exact argHypothesis fitsArg

theorem occursFree_of_fits {room : Nat} {term : Term} (fits : term.Fits room) (name : String) :
    occursFree name room term = .ok () := by
  induction term generalizing room with
  | var => rfl
  | lam param body _ bodyHypothesis =>
    obtain ⟨rest, rfl, fitsBody⟩ := fits_lam.1 fits
    rw [occursFree]
    split
    · rfl
    · exact bodyHypothesis fitsBody
  | app func arg _ _ funcHypothesis argHypothesis =>
    obtain ⟨fitsFunc, rest, rfl, fitsArg⟩ := fits_app.1 fits
    rw [occursFree, funcHypothesis fitsFunc]
    simp only [bind, Except.bind]
    split
    · rfl
    · exact argHypothesis fitsArg
  | hole => exact absurd fits not_fits_hole

theorem uses_of_fits {room : Nat} {term : Term} (fits : term.Fits room) (name : String) :
    uses name room term = .ok () := by
  induction term generalizing room with
  | var | hole => rfl
  | lam param body _ bodyHypothesis =>
    obtain ⟨rest, rfl, fitsBody⟩ := fits_lam.1 fits
    rw [uses]
    split
    · rfl
    · exact bodyHypothesis fitsBody
  | app func arg _ _ funcHypothesis argHypothesis =>
    obtain ⟨fitsFunc, rest, rfl, fitsArg⟩ := fits_app.1 fits
    rw [uses, funcHypothesis fitsFunc]
    exact argHypothesis fitsArg

/-- A copy of the replacement may stand at the deepest place of the term. -/
theorem substitute_of_fits {room : Nat} {term replacement : Term} (complete : term.complete = true)
    (fits : replacement.Fits (room - term.nesting)) (deep : term.nesting ≤ room) (name : String) :
    substitute name replacement room term = .ok () := by
  have visited {room : Nat} {term : Term} (fits : term.Fits room) : all room term = .ok () :=
    (everywhere_eq_ok _ _ _).2 fits
  induction term generalizing room with
  | var other =>
    rw [substitute]
    split
    · exact visited (fits.mono (Nat.sub_le room _))
    · rfl
  | lam param body _ bodyHypothesis =>
    rw [Term.nesting] at fits deep
    obtain ⟨rest, rfl⟩ : ∃ rest, room = rest + 1 := ⟨room - 1, by omega⟩
    rw [Nat.add_sub_add_right] at fits
    have inBody : substitute name replacement rest body = .ok () :=
      bodyHypothesis complete fits (Nat.le_of_succ_le_succ deep)
    have wholeBody : all rest body = .ok () := visited ⟨complete, Nat.le_of_succ_le_succ deep⟩
    rw [substitute]
    split
    · rfl
    · rw [visited (fits.mono (by omega))]
      simp only [descend, inBody, wholeBody, bind, Except.bind]
      split <;> rfl
  | app func arg _ _ funcHypothesis argHypothesis =>
    rw [Term.complete, Bool.and_eq_true] at complete
    rw [Term.nesting] at fits deep
    obtain ⟨rest, rfl⟩ : ∃ rest, room = rest + 1 := ⟨room - 1, by omega⟩
    rw [substitute, funcHypothesis complete.1 (fits.mono (by omega)) (by omega)]
    exact argHypothesis complete.2 (fits.mono (by omega)) (by omega)
  | hole => cases complete

/-- With room for twice the nesting of a term, its redexes can be contracted wherever the argument is copied to. -/
theorem contract?_of_shallow {room : Nat} {term : Term} (complete : term.complete = true)
    (shallow : 2 * term.nesting ≤ room) (label : Option Int) : contract? label room term = .ok () := by
  induction term generalizing room with
  | var => rfl
  | lam param body _ bodyHypothesis =>
    rw [Term.nesting] at shallow
    obtain ⟨rest, rfl⟩ : ∃ rest, room = rest + 1 := ⟨room - 1, by omega⟩
    exact bodyHypothesis complete (by omega)
  | app func arg own origin funcHypothesis argHypothesis =>
    rw [Term.complete, Bool.and_eq_true] at complete
    rw [Term.nesting] at shallow
    obtain ⟨rest, rfl⟩ : ∃ rest, room = rest + 1 := ⟨room - 1, by omega⟩
    rw [contract?]
    split
    next redex found =>
      -- the body and the argument are one level further inside than the redex
      rw [Option.filter_eq_some_iff] at found
      cases Term.term_of_redexHere? found.1
      simp only [Term.nesting] at shallow
      have fits : redex.arg.Fits (rest - redex.body.nesting) := ⟨complete.2, by omega⟩
      have completeBody : redex.body.complete = true := complete.1
      have deep : redex.body.nesting ≤ rest := by omega
      exact substitute_of_fits completeBody fits deep redex.param
    next =>
      rw [funcHypothesis complete.1 (by omega)]
      simp only [bind, Except.bind]
      split
      · rfl
      · exact argHypothesis complete.2 (by omega)
  | hole => cases complete

/-- Only the first of two terms is visited throughout. -/
theorem sameShape_of_fits {room : Nat} {term : Term} (fits : term.Fits room) (other : Term) :
    sameShape room term other = .ok () := by
  induction term generalizing room other with
  | var => cases other <;> rfl
  | lam param body _ bodyHypothesis =>
    obtain ⟨rest, rfl, fitsBody⟩ := fits_lam.1 fits
    cases other with
    | lam otherParam otherBody _ =>
      rw [sameShape]
      split
      · exact bodyHypothesis fitsBody otherBody
      · rfl
    | var | app | hole => rfl
  | app func arg _ _ funcHypothesis argHypothesis =>
    obtain ⟨fitsFunc, rest, rfl, fitsArg⟩ := fits_app.1 fits
    cases other with
    | app otherFunc otherArg _ _ =>
      rw [sameShape, funcHypothesis fitsFunc]
      split
      · simp only [bind, Except.bind]
        split
        · exact argHypothesis fitsArg otherArg
        · rfl
      · rfl
    | var | lam | hole => rfl
  | hole => exact absurd fits not_fits_hole

end Visit

/-! ## Guarded operations -/

namespace Guarded

open Term (Fits)

/-- What is computed once every node has been visited. -/
theorem all_then_eq_ok {α : Type} {term : Term} {value result : α} :
    (do Visit.all nestingLimit term; return value : Result α) = .ok result ↔
      term.Fits nestingLimit ∧ value = result := by
  rw [bind_eq_ok]
  constructor
  · rintro ⟨_, visited, same⟩
    exact ⟨(Visit.everywhere_eq_ok _ _ _).1 visited, Except.ok.inj same⟩
  · rintro ⟨fits, rfl⟩
    exact ⟨(), (Visit.everywhere_eq_ok _ _ _).2 fits, rfl⟩

theorem number_eq_ok {term result : Term} :
    number term = .ok result ↔ term.Fits nestingLimit ∧ term.number = result :=
  all_then_eq_ok

theorem print_eq_ok {lambda text : String} {term : Term} :
    print lambda term = .ok text ↔ term.Fits nestingLimit ∧ term.print lambda = text :=
  all_then_eq_ok

theorem sameShape_of_fits {term : Term} (fits : term.Fits nestingLimit) (other : Term) :
    sameShape term other = .ok (term.sameShape other) := by
  rw [sameShape, Visit.sameShape_of_fits fits]
  rfl

/-- Term and replacement together nest no deeper than the limit, so a copy fits wherever it is put. -/
theorem substitute_of_shallow {term replacement : Term} (complete : term.complete = true)
    (completeReplacement : replacement.complete = true) (shallow : term.nesting + replacement.nesting ≤ nestingLimit)
    (name : String) (mark : Bool) (source : Option Int) :
    substitute term name replacement mark source = .ok (term.substitute name replacement mark source) := by
  have fits : replacement.Fits (nestingLimit - term.nesting) := ⟨completeReplacement, by omega⟩
  rw [substitute, Visit.substitute_of_fits complete fits (by omega) name]
  rfl

/-- The searches for redexes and the contraction of one succeed on a term that nests at most half as deep as the
limit. -/
theorem redex_operations_of_shallow {term : Term} (complete : term.complete = true)
    (shallow : 2 * term.nesting ≤ nestingLimit) (label : Option Int) :
    redexes term = .ok term.redexes ∧ redexLabelled? label term = .ok (term.redexLabelled? label) ∧
      reduceAt term label = .ok (term.reduceAt label) := by
  have fits : term.Fits nestingLimit := ⟨complete, by omega⟩
  refine ⟨?_, ?_, ?_⟩
  · rw [redexes, Visit.lenient_of_fits fits]
    rfl
  · rw [redexLabelled?, Visit.redexLabelled?_of_fits fits]
    rfl
  · rw [reduceAt, Visit.contract?_of_shallow complete shallow]
    rfl

/-- A step that succeeds is the step without guards, and both its ends fit. -/
theorem step_eq_ok {term result : Term} {label : Option Int} (stepped : step term label = .ok result) :
    term.step label = result ∧ term.Fits nestingLimit ∧ result.Fits nestingLimit := by
  rw [step, bind_eq_ok] at stepped
  obtain ⟨cleared, clears, stepped⟩ := stepped
  obtain ⟨numbered, numbers, stepped⟩ := bind_eq_ok.1 stepped
  obtain ⟨reduced, reduces, renumbers⟩ := bind_eq_ok.1 stepped
  -- each stage starts from what the one before it gave
  obtain ⟨fitsTerm, rfl⟩ := all_then_eq_ok.1 clears
  obtain ⟨_, rfl⟩ := number_eq_ok.1 numbers
  obtain ⟨_, _, same⟩ := bind_eq_ok.1 reduces
  cases Except.ok.inj same
  obtain ⟨fits, rfl⟩ := number_eq_ok.1 renumbers
  exact ⟨rfl, fitsTerm, fits.of_bare_eq (Term.bare_number _).symm⟩

theorem fits_body_of_redexLabelled? {room : Nat} {term : Term} {label : Option Int} {redex : Redex}
    (fits : term.Fits room) (found : term.redexLabelled? label = some redex) : redex.body.Fits room := by
  rw [Term.redexLabelled?_eq, Option.map_eq_some_iff] at found
  obtain ⟨place, found, rfl⟩ := found
  have whole : place.redex.term.Fits room := fits.at? (Term.at?_of_mem_redexPlaces (List.mem_of_find?_eq_some found))
  obtain ⟨rest, rfl, fitsBody⟩ := Term.fits_lam.1 (Term.fits_app.1 whole).1
  exact fitsBody.mono (Nat.le_succ rest)

/-- The links between two terms that fit can be looked up. -/
theorem links_of_fits {before after : Term} (fitsBefore : before.Fits nestingLimit)
    (fitsAfter : after.Fits nestingLimit) (source : Option Int) :
    links before after source = .ok (Links.between before after source) := by
  have found : redexLabelled? source before = .ok (before.redexLabelled? source) := by
    rw [redexLabelled?, Visit.redexLabelled?_of_fits fitsBefore]
    rfl
  have grouped : substitutions after = .ok after.substitutions := by
    rw [substitutions, (Visit.everywhere_eq_ok _ _ _).2 fitsAfter]
    rfl
  rw [links, found, grouped]
  cases labelled : before.redexLabelled? source with
  | none => rfl
  | some redex =>
    have used : usesArgument redex = .ok redex.usesArgument := by
      rw [usesArgument, occursFree, Visit.occursFree_of_fits (fits_body_of_redexLabelled? fitsBefore labelled)]
      rfl
    simp only [used, bind, Except.bind, pure, Except.pure]

theorem fullLinks_of_fits {before after : Term} (fitsBefore : before.Fits nestingLimit)
    (fitsAfter : after.Fits nestingLimit) (source : Option Int) :
    fullLinks before after source = .ok (Links.between before after source) := by
  rw [fullLinks, links_of_fits fitsBefore fitsAfter]
  cases labelled : before.redexLabelled? source with
  | none => simp only [Links.between, labelled, bind, Except.bind, pure, Except.pure]
  | some redex =>
    have collected : parameterUses redex = .ok redex.parameterUses := by
      rw [parameterUses, uses, Visit.uses_of_fits (fits_body_of_redexLabelled? fitsBefore labelled)]
      rfl
    simp only [Links.between, labelled, collected, bind, Except.bind, pure, Except.pure]

theorem fullLinks_of_step {term result : Term} {label : Option Int} (stepped : step term label = .ok result) :
    fullLinks term result label = .ok (Links.between term (term.step label) label) := by
  obtain ⟨rfl, fits, fitsResult⟩ := step_eq_ok stepped
  exact fullLinks_of_fits fits fitsResult label

end Guarded

end BetaStepper
