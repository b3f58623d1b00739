import BetaStepper.Proofs.Erasure
import BetaStepper.Term.Lexeme

/-! # The grammar of terms

A derivation is a tree of its own, so that a text can be asked for all of its derivations: `Expr` is a row of items, an
item being a variable, a row in parentheses or an abstraction. The body of an abstraction takes all that follows, so an
abstraction can only be the last item of its row, and the type has no place for one elsewhere. -/

namespace BetaStepper.Grammar

mutual

/-- An item that ends by itself. -/
inductive Atom where
  | ident (name : String)
  | paren (inner : Expr)

/-- A row of one or more items. -/
inductive Expr where
  | atom (item : Atom)
  | lambda (param : String) (body : Expr)
  | cons (first : Atom) (rest : Expr)

end

mutual

def Atom.tokens : Atom → List Token
  | .ident name => [.name name]
  | .paren inner => .leftParen :: (inner.tokens ++ [.rightParen])

/-- The tokens that the derivation derives. -/
def Expr.tokens : Expr → List Token
  | .atom item => item.tokens
  | .lambda param body => .lambda :: .name param :: .dot :: body.tokens
  | .cons first rest => first.tokens ++ rest.tokens

end

/-- The application of the first term to the others, which associates to the left. -/
def applyRow : List Term → Term
  | [] => .hole
  | first :: rest => rest.foldl (fun func arg => .app func arg none {}) first

mutual

def Atom.tree : Atom → Term
  | .ident name => .var name {}
  | .paren inner => applyRow inner.items

def Expr.items : Expr → List Term
  | .atom item => [item.tree]
  | .lambda param body => [.lam param (applyRow body.items) {}]
  | .cons first rest => first.tree :: rest.items

end

def Expr.tree (expr : Expr) : Term := applyRow expr.items

/-- What holds of all items of a row, and of an application if it holds of both its sides, holds of the row. -/
theorem applyRow_of_forall {motive : Term → Prop}
    (apply : ∀ func arg, motive func → motive arg → motive (.app func arg none {})) {items : List Term}
    (nonempty : items ≠ []) (all : ∀ term ∈ items, motive term) : motive (applyRow items) := by
  cases items with
  | nil => contradiction
  | cons first rest =>
    rw [List.forall_mem_cons] at all
    obtain ⟨ofFirst, ofRest⟩ := all
    clear nonempty
    induction rest generalizing first with
    | nil => exact ofFirst
    | cons arg rest restHypothesis =>
      rw [List.forall_mem_cons] at ofRest
      -- the application of the first two is the first of a shorter row
      exact restHypothesis (.app first arg none {}) (apply first arg ofFirst ofRest.1) ofRest.2

/-! ## The terms of derivations are bare -/

theorem bare_applyRow {items : List Term} (allBare : ∀ term ∈ items, term.bare = term) :
    (applyRow items).bare = applyRow items := by
  by_cases empty : items = []
  · rw [empty]
    rfl
  · apply applyRow_of_forall _ empty allBare
    intro func arg funcBare argBare
    rw [Term.bare, funcBare, argBare]

mutual

theorem Atom.bare_tree (item : Atom) : item.tree.bare = item.tree := by
  cases item with
  | ident name => rfl
  | paren inner => exact bare_applyRow inner.bare_items

theorem Expr.bare_items (expr : Expr) : ∀ term ∈ expr.items, term.bare = term := by
  intro term member
  cases expr with
  | atom item =>
    rw [Expr.items, List.mem_singleton] at member
    rw [member, item.bare_tree]
  | lambda param body =>
    rw [Expr.items, List.mem_singleton] at member
    rw [member, Term.bare, bare_applyRow body.bare_items]
  | cons first rest =>
    rw [Expr.items, List.mem_cons] at member
    rcases member with rfl | member
    · exact first.bare_tree
    · exact rest.bare_items term member

end

/-- No node of it has a label or a mark. -/
theorem Expr.bare_tree (expr : Expr) : expr.tree.bare = expr.tree :=
  bare_applyRow expr.bare_items

/-! ## Derivations are unique -/

theorem Expr.tokens_eq_cons (expr : Expr) : ∃ token rest, expr.tokens = token :: rest ∧ token ≠ .rightParen := by
  have atomic (item : Atom) (more : List Token) :
      ∃ token rest, item.tokens ++ more = token :: rest ∧ token ≠ .rightParen := by
    cases item with
    | ident name => exact ⟨.name name, more, rfl, by simp⟩
    | paren inner => exact ⟨.leftParen, inner.tokens ++ [.rightParen] ++ more, rfl, by simp⟩
  cases expr with
  | atom item => simpa [tokens] using atomic item []
  | lambda param body => exact ⟨.lambda, .name param :: .dot :: body.tokens, rfl, by simp⟩
  | cons first rest => exact atomic first rest.tokens

/-- What can follow a row: nothing, or the parenthesis that ends it. -/
def Ends (tokens : List Token) : Prop := ∀ token ∈ tokens.head?, token = .rightParen

theorem not_ends_tokens_append (expr : Expr) (more : List Token) : ¬ Ends (expr.tokens ++ more) := by
  obtain ⟨token, rest, same, other⟩ := expr.tokens_eq_cons
  intro ends
  rw [same] at ends
  exact other (ends token rfl)

mutual

theorem Atom.tokens_inj (item other : Atom) {more rest : List Token}
    (same : item.tokens ++ more = other.tokens ++ rest) : item = other ∧ more = rest := by
  cases item with
  | ident name =>
    cases other with
    | ident otherName =>
      simp only [Atom.tokens, List.cons_append, List.nil_append, List.cons.injEq, Token.name.injEq] at same
      exact ⟨by rw [same.1], same.2⟩
    | paren => simp [Atom.tokens] at same
  | paren inner =>
    cases other with
    | ident => simp [Atom.tokens] at same
    | paren otherInner =>
      simp only [Atom.tokens, List.cons_append, List.append_assoc, List.nil_append, List.cons.injEq,
        true_and] at same
      obtain ⟨rfl, sameRest⟩ := inner.tokens_inj otherInner (by simp [Ends]) (by simp [Ends]) same
      exact ⟨rfl, by simpa using sameRest⟩

theorem Expr.tokens_inj (expr other : Expr) {more rest : List Token} (ends : Ends more) (endsRest : Ends rest)
    (same : expr.tokens ++ more = other.tokens ++ rest) : expr = other ∧ more = rest := by
  cases expr with
  | atom item =>
    cases other with
    | atom otherItem =>
      obtain ⟨rfl, sameRest⟩ := item.tokens_inj otherItem same
      exact ⟨rfl, sameRest⟩
    | lambda => cases item <;> simp [Expr.tokens, Atom.tokens] at same
    | cons first others =>
      rw [Expr.tokens, Expr.tokens, List.append_assoc] at same
      obtain ⟨rfl, rfl⟩ := item.tokens_inj first same
      -- one row ends where the other goes on with an item
      exact absurd ends (not_ends_tokens_append others rest)
  | lambda param body =>
    cases other with
    | atom item => cases item <;> simp [Expr.tokens, Atom.tokens] at same
    | lambda otherParam otherBody =>
      simp only [Expr.tokens, List.cons_append, List.cons.injEq, Token.name.injEq, true_and] at same
      obtain ⟨rfl, sameBody⟩ := same
      obtain ⟨rfl, sameRest⟩ := body.tokens_inj otherBody ends endsRest sameBody
      exact ⟨rfl, sameRest⟩
    | cons first => cases first <;> simp [Expr.tokens, Atom.tokens] at same
  | cons first others =>
    cases other with
    | atom item =>
      rw [Expr.tokens, Expr.tokens, List.append_assoc] at same
      obtain ⟨rfl, rfl⟩ := first.tokens_inj item same
      exact absurd endsRest (not_ends_tokens_append others more)
    | lambda => cases first <;> simp [Expr.tokens, Atom.tokens] at same
    | cons otherFirst otherOthers =>
      rw [Expr.tokens, Expr.tokens, List.append_assoc, List.append_assoc] at same
      obtain ⟨rfl, sameOthers⟩ := first.tokens_inj otherFirst same
      obtain ⟨rfl, sameRest⟩ := others.tokens_inj otherOthers ends endsRest sameOthers
      exact ⟨rfl, sameRest⟩

end

/-- A row of tokens has at most one derivation. -/
theorem Expr.eq_of_tokens_eq {expr other : Expr} (same : expr.tokens = other.tokens) : expr = other := by
  have ends : Ends [] := by simp [Ends]
  have extended : expr.tokens ++ [] = other.tokens ++ [] := by rw [same]
  exact (expr.tokens_inj other ends ends extended).1

end BetaStepper.Grammar
