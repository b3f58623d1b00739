import BetaStepper.Proofs.Limits
import BetaStepper.Proofs.Names
import BetaStepper.Proofs.Parsing

/-! # Printed terms read back

The text of a term is compared with a derivation in the grammar, `Term.derivation`, that puts parentheses exactly where
printing does. Its tree is the bare term, and its tokens are what the scanner makes of the text. The second fact goes by
induction on the term only if something may follow the text, so `CutInto` says it of a text that stands in front of
any rest that does not go on with a name. -/

namespace BetaStepper

open Grammar
open Lexeme (isNameChar isName)

namespace Grammar

/-- A row as a single item, in parentheses unless it is one already. -/
def Expr.asAtom : Expr → Atom
  | .atom item => item
  | expr => .paren expr

@[simp] theorem Expr.tree_asAtom (expr : Expr) : expr.asAtom.tree = expr.tree := by
  cases expr <;> rfl

end Grammar

/-! ## Texts and their tokens -/

namespace CutInto

theorem nil : CutInto [] [] := fun _ _ _ tokenised => tokenised

theorem name {name : String} (valid : isName name = true) : CutInto name.toList [.name name] := by
  intro rest row ends tokenised
  rw [isName] at valid
  cases chars : name.toList with
  | nil => simp [chars] at valid
  | cons first tail =>
    simp only [chars, Bool.and_eq_true] at valid
    have same : name = String.ofList (first :: tail) := by rw [← chars, String.ofList_toList]
    -- the longest match goes to the end of the name and no further, because `rest` ends it
    rw [same]
    exact .name valid.1 (List.all_eq_true.1 valid.2) ends tokenised

variable {c : Char} {token : Token} {chars more : List Char} {tokens others : List Token}

theorem symbol_cons (known : Symbol c token) (cut : CutInto chars tokens) : CutInto (c :: chars) (token :: tokens) := by
  intro rest row ends tokenised
  exact .symbol known (cut rest row ends tokenised)

theorem blank_cons (cut : CutInto chars tokens) : CutInto (' ' :: chars) tokens := by
  intro rest row ends tokenised
  exact .blank (by decide) (cut rest row ends tokenised)

/-- Two texts stand side by side if the second one does not go on with a name of the first. -/
theorem append_cons (cut : CutInto chars tokens) (ends : isNameChar c = false) (cutMore : CutInto (c :: more) others) :
    CutInto (chars ++ c :: more) (tokens ++ others) := by
  intro rest row endsRest tokenised
  rw [List.append_assoc, List.append_assoc]
  have endsHere : EndsName (c :: more ++ rest) := by simpa [EndsName] using ends
  exact cut _ _ endsHere (cutMore rest row endsRest tokenised)

theorem paren (cut : CutInto chars tokens) :
    CutInto ('(' :: (chars ++ [')'])) (.leftParen :: (tokens ++ [.rightParen])) := by
  have closing : CutInto [')'] [.rightParen] := symbol_cons .rightParen nil
  exact symbol_cons .leftParen (cut.append_cons (by decide) closing)

end CutInto

namespace Term

/-! ## The derivation of a printed term -/

/-- The derivation that has the parentheses of the printed text. -/
def derivation : Term → Expr
  | var name _ => .atom (.ident name)
  | lam param body _ => .lambda param body.derivation
  | app func arg _ _ => .atom (.paren (.cons func.derivation.asAtom (.atom arg.derivation.asAtom)))
  | hole => .atom (.ident "")

theorem tree_derivation {term : Term} (complete : term.complete = true) : term.derivation.tree = term.bare := by
  induction term with
  | var => rfl
  | lam param body _ bodyHypothesis =>
    rw [bare, ← bodyHypothesis complete]
    rfl
  | app func arg _ _ funcHypothesis argHypothesis =>
    simp only [Term.complete, Bool.and_eq_true] at complete
    rw [bare, ← funcHypothesis complete.1, ← argHypothesis complete.2, ← func.derivation.tree_asAtom,
      ← arg.derivation.tree_asAtom]
    rfl
  | hole => cases complete

theorem cutInto_wrap {term : Term} {text : String} (cut : CutInto text.toList term.derivation.tokens) :
    CutInto (term.wrap text).toList term.derivation.asAtom.tokens := by
  -- an abstraction is the only term whose derivation is not an item already
  cases term with
  | lam =>
    have wrapped := cut.paren
    simpa [wrap, isAbstraction, derivation, Expr.asAtom, Atom.tokens] using wrapped
  | var | app | hole => exact cut

theorem cutInto_print {c : Char} (known : Symbol c .lambda) {term : Term} (named : term.namedBy isName = true) :
    CutInto (term.print (String.singleton c)).toList term.derivation.tokens := by
  induction term with
  | var name => exact .name named
  | lam param body _ bodyHypothesis =>
    simp only [namedBy, Bool.and_eq_true] at named
    have cutBody := CutInto.symbol_cons .dot (bodyHypothesis named.2)
    have cut := CutInto.symbol_cons known ((CutInto.name named.1).append_cons (by decide) cutBody)
    simpa [print, derivation, Expr.tokens] using cut
  | app func arg _ _ funcHypothesis argHypothesis =>
    simp only [namedBy, Bool.and_eq_true] at named
    have cutFunc := cutInto_wrap (funcHypothesis named.1)
    have cutArg := cutInto_wrap (argHypothesis named.2)
    -- the blank is needed: the function may end with a name and the argument start with one
    have cut := (cutFunc.append_cons (by decide) cutArg.blank_cons).paren
    simpa [print, derivation, Expr.tokens, Atom.tokens] using cut
  | hole => cases named

/-! ## Reading the text back -/

theorem parse_print {c : Char} (known : Symbol c .lambda) {term : Term} (named : term.namedBy isName = true) :
    parse (term.print (String.singleton c)) = .ok term.bare := by
  have tokenised : Tokenised (term.print (String.singleton c)).toList term.derivation.tokens := by
    simpa using cutInto_print known named [] [] (by simp [EndsName]) .nil
  exact parse_eq_ok_iff_derived.2
    ⟨term.derivation, Lexeme.tokenised_iff.1 tokenised, tree_derivation (complete_of_namedBy named)⟩

theorem print_bare (lambda : String) (term : Term) : term.bare.print lambda = term.print lambda := by
  induction term with
  | var | hole => rfl
  | lam _ _ _ bodyHypothesis => simp only [bare, print, bodyHypothesis]
  | app _ _ _ _ funcHypothesis argHypothesis =>
    simp only [bare, print, wrap, isAbstraction_bare, funcHypothesis, argHypothesis]

theorem print_eq_of_bare_eq {term other : Term} (same : term.bare = other.bare) (lambda : String) :
    term.print lambda = other.print lambda := by
  rw [← print_bare lambda term, same, print_bare]

/-- A term whose names are names of the grammar is what its text reads as, less labels and marks, whichever of its two
spellings the lambda has. So two such terms have the same text only if they have the same shape and names. Printing and
comparing are stopped by nothing but the nesting limit. -/
theorem print_reads_back {lambda : String} (usual : lambda = "λ" ∨ lambda = "\\") :
    (∀ term : Term, term.namedBy isName = true →
      parse (term.print lambda) = .ok term.bare ∧ term.sameShape term.bare = true ∧
      (term.nesting ≤ nestingLimit →
        Guarded.print lambda term = .ok (term.print lambda) ∧ Guarded.sameShape term term.bare = .ok true)) ∧
    ∀ term other : Term, term.namedBy isName = true → other.namedBy isName = true →
      (term.print lambda = other.print lambda ↔ term.bare = other.bare) := by
  obtain ⟨c, known, rfl⟩ : ∃ c, Symbol c .lambda ∧ lambda = String.singleton c := by
    rcases usual with rfl | rfl
    · exact ⟨'λ', .lambda, rfl⟩
    · exact ⟨'\\', .backslash, rfl⟩
  constructor
  · intro term named
    have complete := complete_of_namedBy named
    have alike : term.sameShape term.bare = true := sameShape_of_bare_eq complete (bare_bare term).symm
    refine ⟨parse_print known named, alike, ?_⟩
    intro shallow
    have fits : term.Fits nestingLimit := ⟨complete, shallow⟩
    exact ⟨Guarded.print_eq_ok.2 ⟨fits, rfl⟩, by rw [Guarded.sameShape_of_fits fits, alike]⟩
  · intro term other named namedOther
    constructor
    · intro sameText
      have parsed := parse_print known named
      rw [sameText, parse_print known namedOther] at parsed
      exact (Except.ok.inj parsed).symm
    · intro same
      exact print_eq_of_bare_eq same _

/-- The term `(λx'.x' λy_1.y_1) λz.z` with marks, and with labels that no numbering gives. -/
def relabelled : Term :=
  app
    (lam "x'" (app (var "x'" ⟨true, some 7⟩) (lam "y_1" (var "y_1" {}) ⟨true, none⟩) (some (-3)) {}) {})
    (lam "z" (var "z" {}) {}) (some 12) ⟨false, some 0⟩

theorem relabelled_reads_back :
    relabelled.namedBy isName = true ∧ parse (relabelled.print "\\") = .ok relabelled.bare ∧
      relabelled.sameShape relabelled.bare = true ∧ relabelled.bare ≠ relabelled := by
  have named : relabelled.namedBy isName = true := by decide
  obtain ⟨readsBack, alike, _⟩ := (print_reads_back (.inr rfl)).1 relabelled named
  exact ⟨named, readsBack, alike, by decide⟩

end Term

end BetaStepper
