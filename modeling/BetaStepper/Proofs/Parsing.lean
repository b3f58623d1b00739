import BetaStepper.Proofs.Grammar
import BetaStepper.Proofs.Tokens
import BetaStepper.Term.Parser

/-! # The parser follows the grammar

The parser keeps a stack of half-read frames. What a derivation derives it reads (`read_expr`), and what it has read
is always the start of a derivation: `Pending` relates the stack to the tokens that led to it. The step that carries
the second argument is `Pending.closed`: ending all open abstractions at once is what a derivation does item by item. -/

namespace BetaStepper

open Grammar

namespace Grammar

/-- The term of a row with what stands to its left. -/
def Expr.onto (expr : Expr) (left : Option Term) : Term := applyRow (left.toList ++ expr.items)

theorem Expr.onto_none (expr : Expr) : expr.onto none = expr.tree := rfl

theorem Expr.onto_atom (item : Atom) (left : Option Term) :
    (Expr.atom item).onto left = Parser.attach left item.tree := by
  cases left <;> rfl

theorem Expr.onto_lambda (param : String) (body : Expr) (left : Option Term) :
    (Expr.lambda param body).onto left = Parser.attach left (.lam param body.tree {}) := by
  cases left <;> rfl

theorem Expr.onto_cons (first : Atom) (rest : Expr) (left : Option Term) :
    (Expr.cons first rest).onto left = rest.onto (some (Parser.attach left first.tree)) := by
  cases left <;> rfl

end Grammar

namespace Parser

namespace State

def read (state : State) (tokens : List Token) : Except Expected State := tokens.foldlM advance state

@[simp] theorem read_nil (state : State) : state.read [] = .ok state := rfl

theorem read_cons (state : State) (token : Token) (tokens : List Token) :
    state.read (token :: tokens) = state.advance token >>= (·.read tokens) := rfl

theorem read_append (state : State) (tokens more : List Token) :
    state.read (tokens ++ more) = state.read tokens >>= (·.read more) :=
  List.foldlM_append

theorem read_of_advance {state next : State} {token : Token} (accepted : state.advance token = .ok next)
    (tokens : List Token) : state.read (token :: tokens) = next.read tokens := by
  rw [read_cons, accepted]
  rfl

theorem read_of_read {state next : State} {tokens : List Token} (accepted : state.read tokens = .ok next)
    (more : List Token) : state.read (tokens ++ more) = next.read more := by
  rw [read_append, accepted]
  rfl

/-- The positions of the lexemes only matter for errors. -/
theorem run_eq_ok (stop : Nat) {state : State} {lexemes : List Lexeme} {term : Term} :
    state.run stop lexemes = .ok term ↔
      ∃ last, state.read (lexemes.map (·.token)) = .ok last ∧ last.finish = .ok term := by
  induction lexemes generalizing state with
  | nil =>
    rw [run]
    cases finished : state.finish <;> simp [finished]
  | cons lexeme rest restHypothesis =>
    rw [run, List.map_cons]
    cases accepted : state.advance lexeme.token with
    | error expected => simp [read_cons, accepted, bind, Except.bind]
    | ok next => rw [read_of_advance accepted]; exact restHypothesis

end State

end Parser

theorem Term.parse_eq_ok {text : String} {term : Term} :
    Term.parse text = .ok term ↔
      ∃ last, Parser.State.read {} (Lexeme.tokens text) = .ok last ∧ last.finish = .ok term := by
  rw [Lexeme.tokens, ← Parser.State.run_eq_ok text.length, Term.parse]
  cases Lexeme.scan text with
  | nil => simp [Parser.State.run, Parser.State.finish]
  | cons lexeme rest => rfl

namespace Parser

open State

/-! ## What is derived is read -/

mutual

theorem read_atom (item : Atom) (frames : List Frame) (built : Option Term) :
    read ⟨frames, built, .term⟩ item.tokens = .ok ⟨frames, some (attach built item.tree), .term⟩ := by
  cases item with
  | ident name => rfl
  | paren inner =>
    obtain ⟨innerFrames, term, readInner, closes⟩ := read_expr inner (.paren built :: frames) none
    rw [Atom.tokens, read_of_advance (rfl : advance _ .leftParen = .ok ⟨.paren built :: frames, none, .term⟩),
      read_of_read readInner, read_cons]
    -- below the abstractions that the row has left open lies the frame of its parenthesis
    simp only [closeLambdas] at closes
    simp only [advance, closes]
    rfl

/-- A row may leave abstractions open, but ending them gives what ending those around the row gives. -/
theorem read_expr (expr : Expr) (frames : List Frame) (built : Option Term) :
    ∃ inner term, read ⟨frames, built, .term⟩ expr.tokens = .ok ⟨inner, some term, .term⟩ ∧
      closeLambdas term inner = closeLambdas (expr.onto built) frames := by
  cases expr with
  | atom item => exact ⟨frames, attach built item.tree, read_atom item frames built, by rw [Expr.onto_atom]⟩
  | lambda param body =>
    obtain ⟨inner, term, readBody, closes⟩ := read_expr body (.lambda param built :: frames) none
    exact ⟨inner, term, readBody, by rw [closes, closeLambdas, Expr.onto_none, Expr.onto_lambda]⟩
  | cons first rest =>
    obtain ⟨inner, term, readRest, closes⟩ := read_expr rest frames (some (attach built first.tree))
    refine ⟨inner, term, ?_, by rw [closes, Expr.onto_cons]⟩
    rw [Expr.tokens, read_of_read (read_atom first frames built), readRest]

end

theorem finish_of_derived (expr : Expr) :
    ∃ last, read {} expr.tokens = .ok last ∧ last.finish = .ok expr.tree := by
  obtain ⟨inner, term, readAll, closes⟩ := read_expr expr [] none
  refine ⟨_, readAll, ?_⟩
  simp only [finish, closes]
  rfl

/-! ## What is read is derived -/

/-- The tokens that lead to the frames and to the application inside the innermost of them. -/
inductive Pending : List Token → List Frame → Option Term → Prop where
  | start : Pending [] [] none
  | item {before : List Token} {frames : List Frame} {built : Option Term} (item : Atom) :
      Pending before frames built → Pending (before ++ item.tokens) frames (some (attach built item.tree))
  | paren {before : List Token} {frames : List Frame} {built : Option Term} :
      Pending before frames built → Pending (before ++ [.leftParen]) (.paren built :: frames) none
  | lambda {before : List Token} {frames : List Frame} {built : Option Term} (param : String) :
      Pending before frames built →
      Pending (before ++ [.lambda, .name param, .dot]) (.lambda param built :: frames) none

/-- What ending the open abstractions makes of the tokens: a whole row, or one that a parenthesis still has to end. -/
def Closed (tokens : List Token) : Term × Option (Option Term × List Frame) → Prop
  | (term, none) => ∃ expr : Expr, expr.tokens = tokens ∧ expr.tree = term
  | (term, some (outer, frames)) =>
    ∃ before, ∃ expr : Expr, Pending before frames outer ∧ before ++ .leftParen :: expr.tokens = tokens ∧
      expr.tree = term

theorem Pending.closed {before : List Token} {frames : List Frame} {built : Option Term}
    (pending : Pending before frames built) (expr : Expr) :
    Closed (before ++ expr.tokens) (closeLambdas (expr.onto built) frames) := by
  -- the row grows to the left, by the items before it and by the abstractions that it is the body of
  induction pending generalizing expr with
  | start => exact ⟨expr, rfl, rfl⟩
  | item item _ beforeHypothesis =>
    rw [List.append_assoc, ← Expr.onto_cons]
    exact beforeHypothesis (.cons item expr)
  | @paren before _ _ pending => exact ⟨before, expr, pending, by simp, rfl⟩
  | lambda param _ beforeHypothesis =>
    rw [List.append_assoc, closeLambdas, Expr.onto_none, ← Expr.onto_lambda]
    exact beforeHypothesis (.lambda param expr)

theorem Pending.closed_of_some {tokens : List Token} {frames : List Frame} {term : Term}
    (pending : Pending tokens frames (some term)) : Closed tokens (closeLambdas term frames) := by
  cases pending with
  | item item pending =>
    rw [← Expr.onto_atom]
    exact pending.closed (.atom item)

/-- The tokens that lead to a state of the parser. -/
inductive Reached : List Token → State → Prop where
  | term {tokens : List Token} {frames : List Frame} {built : Option Term} :
      Pending tokens frames built → Reached tokens ⟨frames, built, .term⟩
  | parameter {tokens : List Token} {frames : List Frame} {built : Option Term} :
      Pending tokens frames built → Reached (tokens ++ [.lambda]) ⟨frames, built, .parameter⟩
  | dot {tokens : List Token} {frames : List Frame} {built : Option Term} {param : String} :
      Pending tokens frames built → Reached (tokens ++ [.lambda, .name param]) ⟨frames, built, .dot param⟩

theorem Reached.advance {tokens : List Token} {state next : State} {token : Token} (reached : Reached tokens state)
    (accepted : state.advance token = .ok next) : Reached (tokens ++ [token]) next := by
  cases reached with
  | parameter pending =>
    cases token with
    | name param =>
      cases accepted
      rw [List.append_assoc]
      exact .dot pending
    | leftParen | rightParen | dot | lambda | stray => cases accepted
  | dot pending =>
    cases token with
    | dot =>
      cases accepted
      rw [List.append_assoc]
      exact .term (.lambda _ pending)
    | leftParen | rightParen | name | lambda | stray => cases accepted
  | @term _ frames built pending =>
    cases token with
    | leftParen =>
      cases accepted
      exact .term (.paren pending)
    | lambda =>
      cases accepted
      exact .parameter pending
    | name name =>
      cases accepted
      exact .term (.item (.ident name) pending)
    | rightParen =>
      cases built with
      | none => cases accepted
      | some term =>
        have closed := pending.closed_of_some
        simp only [State.advance] at accepted
        split at accepted
        · cases accepted
        · next inner outer rest closes _ =>
          -- the row inside the parenthesis has become an item of the row around it
          cases accepted
          rw [closes] at closed
          obtain ⟨before, expr, pendingBefore, rfl, rfl⟩ := closed
          rw [List.append_assoc]
          exact .term (.item (.paren expr) pendingBefore)
        · cases accepted
    | dot | stray =>
      cases built with
      | none => cases accepted
      | some term =>
        simp only [State.advance] at accepted
        split at accepted
        · cases accepted
        · contradiction
        · cases accepted

theorem Reached.read {tokens more : List Token} {state last : State} (reached : Reached tokens state)
    (accepted : state.read more = .ok last) : Reached (tokens ++ more) last := by
  induction more generalizing tokens state with
  | nil =>
    cases accepted
    simpa using reached
  | cons token more moreHypothesis =>
    cases advanced : state.advance token with
    | error expected => simp [read_cons, advanced, bind, Except.bind] at accepted
    | ok next =>
      rw [read_of_advance advanced] at accepted
      simpa using moreHypothesis (reached.advance advanced) accepted

theorem Reached.finish {tokens : List Token} {state : State} {term : Term} (reached : Reached tokens state)
    (finished : state.finish = .ok term) : ∃ expr : Expr, expr.tokens = tokens ∧ expr.tree = term := by
  cases reached with
  | parameter => cases finished
  | dot => cases finished
  | @term _ frames built pending =>
    cases built with
    | none => cases finished
    | some built =>
      have closed := pending.closed_of_some
      simp only [State.finish] at finished
      split at finished
      · next closes =>
        cases finished
        rw [closes] at closed
        exact closed
      · cases finished

end Parser

/-! ## The parser -/

namespace Term

theorem parse_eq_ok_iff_derived {text : String} {term : Term} :
    parse text = .ok term ↔ ∃ expr : Expr, expr.tokens = Lexeme.tokens text ∧ expr.tree = term := by
  rw [parse_eq_ok]
  constructor
  · rintro ⟨last, accepted, finished⟩
    exact (Parser.Reached.term .start).read accepted |>.finish finished
  · rintro ⟨expr, sameTokens, rfl⟩
    rw [← sameTokens]
    exact Parser.finish_of_derived expr

/-- Blanks at the ends of a text do not change the term. -/
theorem parse_strip_eq_ok {text : String} {term : Term} :
    parse (Text.strip text) = .ok term ↔ parse text = .ok term := by
  rw [parse_eq_ok, parse_eq_ok, Lexeme.tokens_strip]

/-- A text has one row of tokens by longest match. The parser gives the term of the only derivation of the row, with
no labels and no marks, and refuses the text if there is no derivation. -/
theorem parse_accepts_exactly_the_grammar (text : String) :
    ∃ tokens, (∀ row, Tokenised text.toList row ↔ row = tokens) ∧
      (∀ term, parse text = .ok term ↔ ∃ expr : Expr, expr.tokens = tokens ∧ expr.tree = term) ∧
      (∀ expr other : Expr, expr.tokens = tokens → other.tokens = tokens → expr = other) ∧
      (∀ term, parse text = .ok term → term.bare = term) ∧
      ((¬ ∃ expr : Expr, expr.tokens = tokens) → ∃ error, parse text = .error error) := by
  refine ⟨Lexeme.tokens text, fun _ => Lexeme.tokenised_iff, fun _ => parse_eq_ok_iff_derived, ?_, ?_, ?_⟩
  · intro expr other derived otherDerived
    exact Expr.eq_of_tokens_eq (derived.trans otherDerived.symm)
  · intro term parsed
    obtain ⟨expr, -, rfl⟩ := parse_eq_ok_iff_derived.1 parsed
    exact expr.bare_tree
  · intro underivable
    cases parsed : parse text with
    | error error => exact ⟨error, rfl⟩
    | ok term =>
      obtain ⟨expr, derived, -⟩ := parse_eq_ok_iff_derived.1 parsed
      exact absurd ⟨expr, derived⟩ underivable

end Term

end BetaStepper
