import BetaStepper.Proofs.Numbering
import BetaStepper.Proofs.Parsing

/-! # The names in a term

`Term.namedBy` says that every variable and every parameter of a term has an allowed name. What is parsed has names of
the grammar, and a step brings in no names but those that renaming makes, which are old names with primes added. So
whatever is allowed with primes as well stays true of all names along a reduction: the case that carries the argument
is the renamed binder in `namedBy_substitute`. Being complete is the case in which every name is allowed. -/

namespace BetaStepper

/-- What the scanner reads as one name. -/
def Lexeme.isName (name : String) : Bool :=
  match name.toList with
  | [] => false
  | first :: rest => isNameStart first && rest.all isNameChar

/-- Adding a prime to an allowed name gives an allowed name. -/
def Primable (allowed : String → Bool) : Prop := ∀ name, allowed name = true → allowed (name ++ "'") = true

theorem primable_isName : Primable Lexeme.isName := by
  intro name valid
  have primed : (name ++ "'").toList = name.toList ++ ['\x27'] := by simp
  have prime : Lexeme.isNameChar '\x27' = true := by decide
  rw [Lexeme.isName] at valid ⊢
  rw [primed]
  cases chars : name.toList with
  | nil => simp [chars] at valid
  | cons first rest =>
    simp only [chars, Bool.and_eq_true] at valid
    simp [valid.1, List.all_append, valid.2, prime, -List.all_eq_true]

theorem Primable.freshName {allowed : String → Bool} (primable : Primable allowed) {base : String}
    (valid : allowed base = true) (avoid : List String) : allowed (freshName base avoid) = true := by
  fun_induction BetaStepper.freshName base avoid with
  | case1 base avoid taken primedHypothesis => exact primedHypothesis (primable base valid)
  | case2 base avoid free => exact valid

namespace Term

/-- No place is empty, and every variable and every parameter has an allowed name. -/
def namedBy (allowed : String → Bool) : Term → Bool
  | var name _ => allowed name
  | lam param body _ => allowed param && body.namedBy allowed
  | app func arg _ _ => func.namedBy allowed && arg.namedBy allowed
  | hole => false

theorem complete_eq_namedBy (term : Term) : term.complete = term.namedBy fun _ => true := by
  induction term with
  | var | hole => rfl
  | lam _ _ _ bodyHypothesis => simp [complete, namedBy, bodyHypothesis]
  | app _ _ _ _ funcHypothesis argHypothesis => simp [complete, namedBy, funcHypothesis, argHypothesis]

theorem complete_of_namedBy {allowed : String → Bool} {term : Term} (named : term.namedBy allowed = true) :
    term.complete = true := by
  induction term with
  | var => rfl
  | lam _ _ _ bodyHypothesis =>
    simp only [namedBy, Bool.and_eq_true] at named
    exact bodyHypothesis named.2
  | app _ _ _ _ funcHypothesis argHypothesis =>
    simp only [namedBy, Bool.and_eq_true] at named
    simp [complete, funcHypothesis named.1, argHypothesis named.2]
  | hole => cases named

theorem namedBy_bare (allowed : String → Bool) (term : Term) : term.bare.namedBy allowed = term.namedBy allowed := by
  induction term with
  | var | hole => rfl
  | lam _ _ _ bodyHypothesis => simp only [bare, namedBy, bodyHypothesis]
  | app _ _ _ _ funcHypothesis argHypothesis => simp only [bare, namedBy, funcHypothesis, argHypothesis]

theorem namedBy_eq_of_bare_eq {term other : Term} (same : term.bare = other.bare) (allowed : String → Bool) :
    term.namedBy allowed = other.namedBy allowed := by
  rw [← namedBy_bare, same, namedBy_bare]

end Term

/-! ## Names of parsed terms -/

namespace Grammar

variable {allowed : String → Bool}

theorem namedBy_applyRow {items : List Term} (nonempty : items ≠ [])
    (named : ∀ term ∈ items, term.namedBy allowed = true) : (applyRow items).namedBy allowed = true := by
  apply applyRow_of_forall _ nonempty named
  intro func arg namedFunc namedArg
  rw [Term.namedBy, namedFunc, namedArg]
  rfl

mutual

theorem Atom.namedBy_tree (item : Atom) (valid : ∀ name, .name name ∈ item.tokens → allowed name = true) :
    item.tree.namedBy allowed = true := by
  cases item with
  | ident name => exact valid name (by simp [Atom.tokens])
  | paren inner =>
    obtain ⟨nonempty, named⟩ := inner.namedBy_items fun name member => valid name (by simp [Atom.tokens, member])
    exact namedBy_applyRow nonempty named

theorem Expr.namedBy_items (expr : Expr) (valid : ∀ name, .name name ∈ expr.tokens → allowed name = true) :
    expr.items ≠ [] ∧ ∀ term ∈ expr.items, term.namedBy allowed = true := by
  cases expr with
  | atom item => simpa [Expr.items] using item.namedBy_tree valid
  | lambda param body =>
    have validParam := valid param (by simp [Expr.tokens])
    obtain ⟨nonempty, named⟩ := body.namedBy_items fun name member => valid name (by simp [Expr.tokens, member])
    simp [Expr.items, Term.namedBy, validParam, namedBy_applyRow nonempty named]
  | cons first rest =>
    have namedFirst := first.namedBy_tree fun name member => valid name (by simp [Expr.tokens, member])
    obtain ⟨_, named⟩ := rest.namedBy_items fun name member => valid name (by simp [Expr.tokens, member])
    simpa [Expr.items, namedFirst] using named

end

end Grammar

theorem Tokenised.isName {chars : List Char} {tokens : List Token} (tokenised : Tokenised chars tokens) {name : String}
    (member : .name name ∈ tokens) : Lexeme.isName name = true := by
  induction tokenised with
  | nil => cases member
  | blank _ _ restHypothesis => exact restHypothesis member
  | symbol known _ restHypothesis =>
    rcases List.mem_cons.1 member with rfl | member
    · cases known
    · exact restHypothesis member
  | name starts named _ _ restHypothesis =>
    rcases List.mem_cons.1 member with same | member
    · cases same
      simpa [Lexeme.isName, starts] using named
    · exact restHypothesis member
  | stray _ _ _ _ restHypothesis =>
    rcases List.mem_cons.1 member with same | member
    · cases same
    · exact restHypothesis member

theorem Term.namedBy_of_parse {text : String} {term : Term} (parsed : parse text = .ok term) :
    term.namedBy Lexeme.isName = true := by
  obtain ⟨expr, derived, rfl⟩ := parse_eq_ok_iff_derived.1 parsed
  have tokenised : Tokenised text.toList expr.tokens := Lexeme.tokenised_iff.2 derived
  obtain ⟨nonempty, named⟩ := expr.namedBy_items fun _ member => tokenised.isName member
  exact Grammar.namedBy_applyRow nonempty named

namespace Term

/-! ## Names along a reduction -/

variable {allowed : String → Bool}

theorem namedBy_substitute (primable : Primable allowed) {term replacement : Term}
    (named : term.namedBy allowed = true) (namedReplacement : replacement.namedBy allowed = true) (name : String)
    (mark : Bool) (source : Option Int) :
    (term.substitute name replacement mark source).namedBy allowed = true := by
  induction term using renamingInduction generalizing name replacement mark source with
  | var other origin =>
    rw [substitute_var]
    split
    · rw [namedBy_eq_of_bare_eq (bare_stamp mark source replacement), namedReplacement]
    · exact named
  | lam param body origin bodyHypothesis renamedHypothesis =>
    have whole := named
    simp only [namedBy, Bool.and_eq_true] at named
    obtain ⟨validParam, namedBody⟩ := named
    rw [substitute_lam]
    split
    · exact whole
    · split
      · -- the new name is the old one with primes, and the renaming puts nothing else into the body
        have validFresh : allowed (renamed param body name replacement) = true := primable.freshName validParam _
        have namedRenamed (fresh : String) (valid : allowed fresh = true) :
            (body.rename param fresh).namedBy allowed = true :=
          bodyHypothesis namedBody (show (var fresh {}).namedBy allowed = true from valid) param false none
        simp [namedBy, validFresh, renamedHypothesis _ _ (namedRenamed _ validFresh) namedReplacement]
      · simp [namedBy, validParam, bodyHypothesis namedBody namedReplacement]
  | app func arg label origin funcHypothesis argHypothesis =>
    simp only [namedBy, Bool.and_eq_true] at named
    simp [substitute_app, namedBy, funcHypothesis named.1 namedReplacement, argHypothesis named.2 namedReplacement]
  | hole => cases named

theorem namedBy_at? {term node : Term} {path : Path} (named : term.namedBy allowed = true)
    (found : term.at? path = some node) : node.namedBy allowed = true := by
  induction leads_of_at? found with
  | here => exact named
  | body _ bodyHypothesis => exact bodyHypothesis (Bool.and_eq_true_iff.1 named).2 found
  | func _ funcHypothesis => exact funcHypothesis (Bool.and_eq_true_iff.1 named).1 found
  | arg _ argHypothesis => exact argHypothesis (Bool.and_eq_true_iff.1 named).2 found

theorem namedBy_replaceAt {term old node : Term} {path : Path} (named : term.namedBy allowed = true)
    (valid : term.at? path = some old) (namedNode : node.namedBy allowed = true) :
    (term.replaceAt path node).namedBy allowed = true := by
  induction leads_of_at? valid with
  | here => simpa using namedNode
  | body _ bodyHypothesis =>
    obtain ⟨validParam, namedBody⟩ := Bool.and_eq_true_iff.1 named
    exact Bool.and_eq_true_iff.2 ⟨validParam, bodyHypothesis namedBody valid⟩
  | func _ funcHypothesis =>
    obtain ⟨namedFunc, namedArg⟩ := Bool.and_eq_true_iff.1 named
    exact Bool.and_eq_true_iff.2 ⟨funcHypothesis namedFunc valid, namedArg⟩
  | arg _ argHypothesis =>
    obtain ⟨namedFunc, namedArg⟩ := Bool.and_eq_true_iff.1 named
    exact Bool.and_eq_true_iff.2 ⟨namedFunc, argHypothesis namedArg valid⟩

theorem namedBy_contractum (primable : Primable allowed) {redex : Redex}
    (named : redex.term.namedBy allowed = true) (source : Option Int) :
    (redex.contractum source).namedBy allowed = true := by
  simp only [Redex.term, namedBy, Bool.and_eq_true] at named
  exact namedBy_substitute primable named.1.2 named.2 redex.param true source

theorem namedBy_reduceAt (primable : Primable allowed) {term : Term} (named : term.namedBy allowed = true)
    (label : Option Int) : (term.reduceAt label).namedBy allowed = true := by
  rw [reduceAt, contract?_eq]
  cases found : term.labelledPlace? label with
  | none => exact named
  | some place =>
    have redexAt := at?_of_mem_redexPlaces (List.mem_of_find?_eq_some found)
    have namedRedex := namedBy_at? named redexAt
    exact namedBy_replaceAt named redexAt (namedBy_contractum primable namedRedex label)

/-- A step makes no names but old ones with primes. -/
theorem namedBy_step (primable : Primable allowed) {term : Term} (named : term.namedBy allowed = true)
    (label : Option Int) : (term.step label).namedBy allowed = true := by
  have namedPrepared : term.prepared.namedBy allowed = true := by
    rw [namedBy_eq_of_bare_eq (bare_prepared term), named]
  rw [step, namedBy_eq_of_bare_eq (bare_number _)]
  exact namedBy_reduceAt primable namedPrepared label

theorem complete_step {term : Term} (complete : term.complete = true) (label : Option Int) :
    (term.step label).complete = true := by
  rw [complete_eq_namedBy] at complete ⊢
  exact namedBy_step (fun _ _ => rfl) complete label

end Term

end BetaStepper
