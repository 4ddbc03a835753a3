import RecordRules.Rule
import RecordRules.Token

/-!
Parsing tokens into rules.

Conditions are joined by one connective at each level of parentheses; arithmetic stands
only inside operands, products before sums, each from the left. A parenthesis where a
condition may begin opens an operand exactly when the parenthesis that matches it is
followed by an operator of operands.

The end of the text is the end of the list and lies at byte `stop`. Each reader gives
back what is left, which is shorter than what it was given; those that may read nothing
give back no more than that.
-/

namespace RecordRules.Parse

/-- What is left after reading something from `ts`. -/
abbrev Less (ts : List Token) := { r : List Token // r.length < ts.length }

/-- What is left after reading from `ts`, which may be all of it. -/
abbrev AtMost (ts : List Token) := { r : List Token // r.length ≤ ts.length }

/-- What stops a parse, and at which byte. -/
abbrev Fault := ParseFault × Nat

/-- The two levels of arithmetic. -/
inductive Tier where
  | sum
  | product
deriving DecidableEq, Repr

namespace Tier

/-- The operators that join the links of a chain on this level. -/
def joins : Tier → Arithmetic → Bool
  | sum, a => !a.isMultiplicative
  | product, a => a.isMultiplicative

def rank : Tier → Nat
  | sum => 2
  | product => 0

end Tier

/-- Nesting one level deeper than `depth` passes the limit. -/
def tooDeep (limit : Option Nat) (depth : Nat) : Option Nat := limit.filter (· < depth + 1)

/-- What stands where a parenthesis that was opened at `start` should be closed. -/
def closeParen (start : Nat) (ts : List Token) : Except Fault (Less ts) :=
  match ts with
  | [] => .error (.unbalancedParenthesis, start)
  | t :: r =>
    if t.lexeme = .closeParen then .ok ⟨r, by simp⟩
    else .error (.unexpectedToken t.lexeme, t.offset)

/-- A closing parenthesis stands at the front. -/
def closesAtOnce : List Token → Bool
  | [] => false
  | t :: _ => t.lexeme == .closeParen

mutual

/-- Links joined from the left by the operators of a level. -/
def chain (stop : Nat) (limit : Option Nat) (tier : Tier) (depth : Nat) (ts : List Token) :
    Except Fault (Operand × Less ts) :=
  match link stop limit tier depth ts with
  | .error e => .error e
  | .ok (left, ⟨r, h⟩) =>
    match chainFrom stop limit tier depth left r with
    | .error e => .error e
    | .ok (e, ⟨r', h'⟩) => .ok (e, ⟨r', by omega⟩)
termination_by 8 * ts.length + tier.rank + 2

/-- The rest of a chain, after `left`. -/
def chainFrom (stop : Nat) (limit : Option Nat) (tier : Tier) (depth : Nat) (left : Operand)
    (ts : List Token) : Except Fault (Operand × AtMost ts) :=
  match ts with
  | [] => .ok (left, ⟨[], by simp⟩)
  | t :: r =>
    match t.lexeme with
    | .arithmetic op =>
      if tier.joins op then
        match link stop limit tier depth r with
        | .error e => .error e
        | .ok (right, ⟨r₁, h₁⟩) =>
          match chainFrom stop limit tier depth (.arithmetic left op right) r₁ with
          | .error e => .error e
          | .ok (e, ⟨r₂, h₂⟩) => .ok (e, ⟨r₂, by simp only [List.length_cons]; omega⟩)
      else .ok (left, ⟨t :: r, by simp⟩)
    | _ => .ok (left, ⟨t :: r, by simp⟩)
termination_by 8 * ts.length
decreasing_by
  · have : tier.rank ≤ 2 := by cases tier <;> simp [Tier.rank]
    simp only [List.length_cons]
    omega
  · simp only [List.length_cons]
    omega

/-- A link of a chain: a product in a sum, and an operand in a product. -/
def link (stop : Nat) (limit : Option Nat) (tier : Tier) (depth : Nat) (ts : List Token) :
    Except Fault (Operand × Less ts) :=
  match tier with
  | .sum => chain stop limit .product depth ts
  | .product => operand stop limit depth ts
termination_by 8 * ts.length + tier.rank + 1
decreasing_by all_goals simp [Tier.rank]

/-- A path, a literal, or a sum in parentheses. -/
def operand (stop : Nat) (limit : Option Nat) (depth : Nat) (ts : List Token) :
    Except Fault (Operand × Less ts) :=
  match ts with
  | [] => .error (.unexpectedEnd, stop)
  | t :: r =>
    match t.lexeme with
    | .path text =>
      match Path.read text with
      | .ok p => .ok (.path p, ⟨r, by simp⟩)
      | .error (fault, d) => .error (.ofPath text fault, t.offset + d)
    | .literal l => .ok (.literal l, ⟨r, by simp⟩)
    | .openParen =>
      match tooDeep limit depth with
      | some n => .error (.nestingTooDeep n, t.offset)
      | none =>
        if closesAtOnce r then .error (.emptySubexpression, t.offset)
        else
          match chain stop limit .sum (depth + 1) r with
          | .error e => .error e
          | .ok (e, ⟨r₁, h₁⟩) =>
            match closeParen t.offset r₁ with
            | .error e => .error e
            | .ok ⟨r₂, h₂⟩ => .ok (e, ⟨r₂, by simp only [List.length_cons]; omega⟩)
    | l => .error (.unexpectedToken l, t.offset)
termination_by 8 * ts.length
decreasing_by
  simp only [List.length_cons, Tier.rank]
  omega

end

/-- The literals of a list from the first one on; `start` is where the list opens. -/
def literals (stop start : Nat) (ts : List Token) : Except Fault (List Literal × Less ts) :=
  match ts with
  | [] => .error (.unexpectedEnd, stop)
  | [t] =>
    match t.lexeme with
    | .literal _ => .error (.unexpectedEnd, start)
    | l => .error (.malformedLiteral l, t.offset)
  | t :: u :: r =>
    match t.lexeme with
    | .literal l =>
      match u.lexeme with
      | .comma =>
        match literals stop start r with
        | .error e => .error e
        | .ok (ls, ⟨r', h⟩) => .ok (l :: ls, ⟨r', by simp only [List.length_cons]; omega⟩)
      | .closeBracket => .ok ([l], ⟨r, by simp only [List.length_cons]; omega⟩)
      | l => .error (.unexpectedToken l, u.offset)
    | l => .error (.malformedLiteral l, t.offset)

/-- A list after its opening bracket. -/
def listLiteral (stop start : Nat) (ts : List Token) : Except Fault (List Literal × Less ts) :=
  match ts with
  | [] => .error (.unexpectedEnd, stop)
  | t :: r =>
    if t.lexeme = .closeBracket then .ok ([], ⟨r, by simp⟩) else literals stop start (t :: r)

/-- The argument of a verb. -/
def argument (stop : Nat) (limit : Option Nat) (depth : Nat) (verb : Verb) (ts : List Token) :
    Except Fault (Argument × Less ts) :=
  match ts with
  | [] => .error (.unexpectedEnd, stop)
  | t :: r =>
    if t.lexeme = .openBracket then
      if verb.isMembership then
        match listLiteral stop t.offset r with
        | .error e => .error e
        | .ok (ls, ⟨r', h⟩) => .ok (.list ls, ⟨r', by simp only [List.length_cons]; omega⟩)
      else .error (.unexpectedToken .openBracket, t.offset)
    else
      match chain stop limit .sum depth (t :: r) with
      | .error e => .error e
      | .ok (e, r') => .ok (.operand e, r')

/-- A comparison, or a verb with its subject and argument. -/
def predicate (stop : Nat) (limit : Option Nat) (depth : Nat) (ts : List Token) :
    Except Fault (Rule × Less ts) :=
  match chain stop limit .sum depth ts with
  | .error e => .error e
  | .ok (_, ⟨[], _⟩) => .error (.unexpectedEnd, stop)
  | .ok (left, ⟨t :: r, h⟩) =>
    match t.lexeme with
    | .relation op =>
      match chain stop limit .sum depth r with
      | .error e => .error e
      | .ok (right, ⟨r', h'⟩) =>
        .ok (.comparison left op right, ⟨r', by simp only [List.length_cons] at h; omega⟩)
    | .verb v =>
      match argument stop limit depth v r with
      | .error e => .error e
      | .ok (a, ⟨r', h'⟩) =>
        .ok (.predicate left v a, ⟨r', by simp only [List.length_cons] at h; omega⟩)
    | .path word => .error (.unknownOperator word, t.offset)
    | l => .error (.unexpectedToken l, t.offset)

/-- The parenthesis that closes the innermost open one is followed by an operator of
operands; `level` more are open inside. -/
def opensOperand (level : Nat) : List Token → Bool
  | [] => false
  | t :: r =>
    match t.lexeme with
    | .openParen => opensOperand (level + 1) r
    | .closeParen =>
      match level with
      | 0 => r.head?.any (·.lexeme.followsOperand)
      | n + 1 => opensOperand n r
    | _ => opensOperand level r

mutual

/-- Terms joined by one connective; a single term stands for itself. -/
def group (stop : Nat) (limit : Option Nat) (depth : Nat) (ts : List Token) :
    Except Fault (Rule × Less ts) :=
  match term stop limit depth ts with
  | .error e => .error e
  | .ok (first, ⟨[], h⟩) => .ok (first, ⟨[], h⟩)
  | .ok (first, ⟨t :: r, h⟩) =>
    match t.lexeme with
    | .connective op =>
      match terms stop limit depth op (t :: r) with
      | .error e => .error e
      | .ok (more, ⟨r', h'⟩) => .ok (.group op (first :: more), ⟨r', by omega⟩)
    | _ => .ok (first, ⟨t :: r, h⟩)
termination_by 8 * ts.length + 2
decreasing_by
  · omega
  · simp only [List.length_cons] at h ⊢
    omega

/-- Further terms, each after the connective `op`. -/
def terms (stop : Nat) (limit : Option Nat) (depth : Nat) (op : Connective) (ts : List Token) :
    Except Fault (List Rule × AtMost ts) :=
  match ts with
  | [] => .ok ([], ⟨[], by simp⟩)
  | t :: r =>
    match t.lexeme with
    | .connective op' =>
      if op' = op then
        match term stop limit depth r with
        | .error e => .error e
        | .ok (first, ⟨r₁, h₁⟩) =>
          match terms stop limit depth op r₁ with
          | .error e => .error e
          | .ok (more, ⟨r₂, h₂⟩) =>
            .ok (first :: more, ⟨r₂, by simp only [List.length_cons]; omega⟩)
      else .error (.mixedConnectives op op', t.offset)
    | _ => .ok ([], ⟨t :: r, by simp⟩)
termination_by 8 * ts.length
decreasing_by all_goals (simp only [List.length_cons]; omega)

/-- A group in parentheses, or a predicate. -/
def term (stop : Nat) (limit : Option Nat) (depth : Nat) (ts : List Token) :
    Except Fault (Rule × Less ts) :=
  match ts with
  | [] => predicate stop limit depth []
  | t :: r =>
    if t.lexeme = .openParen ∧ opensOperand 0 r = false then
      match tooDeep limit depth with
      | some n => .error (.nestingTooDeep n, t.offset)
      | none =>
        if closesAtOnce r then .error (.emptySubexpression, t.offset)
        else
          match group stop limit (depth + 1) r with
          | .error e => .error e
          | .ok (rule, ⟨r₁, h₁⟩) =>
            match closeParen t.offset r₁ with
            | .error e => .error e
            | .ok ⟨r₂, h₂⟩ => .ok (rule, ⟨r₂, by simp only [List.length_cons]; omega⟩)
    else predicate stop limit depth (t :: r)
termination_by 8 * ts.length + 1
decreasing_by
  simp only [List.length_cons]
  omega

end

/-- A rule that takes all the tokens. -/
def rule (stop : Nat) (limit : Option Nat) (ts : List Token) : Except Fault Rule :=
  match ts with
  | [] => .error (.emptySubexpression, 0)
  | t :: r =>
    match group stop limit 0 (t :: r) with
    | .error e => .error e
    | .ok (rule, ⟨[], _⟩) => .ok rule
    | .ok (_, ⟨u :: _, _⟩) =>
      if u.lexeme = .closeParen then .error (.unbalancedParenthesis, u.offset)
      else .error (.unexpectedToken u.lexeme, u.offset)

end RecordRules.Parse

namespace RecordRules

/-- The rule that a text spells, with parentheses nested no deeper than the limit. -/
def Rule.parse (limit : Option Nat) (source : String) : Except RuleError Rule :=
  match Token.scan source with
  | .error e => .error e
  | .ok ts =>
    match Parse.rule (Text.bytes source.toList) limit ts with
    | .ok r => .ok r
    | .error (fault, offset) => .error (.parseAt source fault offset)

namespace Rule

variable {limit : Option Nat} {source : String}

theorem parse_of_scan {ts : List Token} (h : Token.scan source = .ok ts) :
    parse limit source =
      (Parse.rule (Text.bytes source.toList) limit ts).mapError fun f => .parseAt source f.1 f.2 := by
  rw [parse, h]
  dsimp only
  cases Parse.rule (Text.bytes source.toList) limit ts <;> rfl

theorem exists_of_parse {t : Rule} (h : parse limit source = .ok t) :
    ∃ ts, Token.scan source = .ok ts ∧
      Parse.rule (Text.bytes source.toList) limit ts = .ok t := by
  cases hs : Token.scan source with
  | error e => simp [parse, hs] at h
  | ok ts =>
    rw [parse_of_scan hs] at h
    refine ⟨ts, rfl, ?_⟩
    cases hr : Parse.rule (Text.bytes source.toList) limit ts with
    | error f => rw [hr] at h; cases h
    | ok r => rw [hr] at h; cases h; rfl

end Rule

end RecordRules
