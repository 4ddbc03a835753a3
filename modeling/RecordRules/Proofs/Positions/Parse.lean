import RecordRules.Proofs.Positions.Path
import RecordRules.Rule.Parse

/-!
The parser by positions. It moves a cursor over the tokens and counts the parentheses that
are open. Where it looks a token up behind the last one, takes one from zero or takes the
first of no terms, it is stuck, and so it is when its steps are used up.
-/

namespace RecordRules.Positions

open Parse (Fault Tier)

/-- The position in the tokens, and how many parentheses are open. -/
structure Cursor where
  pos : ℕ
  depth : ℕ

/-- Reads from the cursor on, unless it is stuck. -/
abbrev Reader := StateT Cursor (ExceptT Fault Option)

namespace Reader

variable {α β : Type} {x : Reader α} {f : α → Reader β} {a : α} {c c' : Cursor}

def stuck : Reader α := fun _ => none

def fail (fault : ParseFault) (offset : ℕ) : Reader α := fun _ => some (.error (fault, offset))

def ofOption : Option α → Reader α
  | some a => pure a
  | none => stuck

lemma bind_ok (h : x c = some (.ok (a, c'))) : (x >>= f) c = f a c' := by
  change (x c).bind _ = _
  rw [h]
  rfl

lemma bind_error {e : Fault} (h : x c = some (.error e)) : (x >>= f) c = some (.error e) := by
  change (x c).bind _ = _
  rw [h]
  rfl

end Reader

open Reader

section

variable (ms : List Mark) (limit : Option ℕ)

/-! ### The cursor -/

/-- The token at the cursor, or the last one if the cursor has passed it. -/
def peek : Reader Mark := do
  let c ← get
  let last ← ofOption (sub? ms.length 1)
  ofOption ms[min c.pos last]?

/-- The token at the cursor, which moves on unless it stands at the last one. -/
def advance : Reader Mark := do
  let m ← peek ms
  let c ← get
  let last ← ofOption (sub? ms.length 1)
  set { c with pos := if c.pos < last then c.pos + 1 else c.pos }
  pure m

/-- Counts a parenthesis that opens at a byte. -/
def enter (offset : ℕ) : Reader Unit := do
  let c ← get
  set { c with depth := c.depth + 1 }
  match Parse.tooDeep limit c.depth with
  | some n => fail (.nestingTooDeep n) offset
  | none => pure ()

/-- Counts a parenthesis that is closed. -/
def leave : Reader Unit := do
  let c ← get
  let depth ← ofOption (sub? c.depth 1)
  set { c with depth := depth }

def expectClose (start : ℕ) : Reader Unit := do
  let m ← advance ms
  match m.lexeme? with
  | some .closeParen => pure ()
  | none => fail .unbalancedParenthesis start
  | some l => fail (.unexpectedToken l) m.offset

/-- What stands in a parenthesis that opened at byte `start`, up to the closing one. -/
def parenthesized {α : Type} (start : ℕ) (x : Reader α) : Reader α := do
  enter limit start
  let m ← peek ms
  if m.lexeme? = some .closeParen then fail .emptySubexpression start
  else do
    let a ← x
    expectClose ms start
    leave
    pure a

/-! ### Operands -/

mutual

def chain : ℕ → Tier → Reader Operand
  | 0, _ => stuck
  | n + 1, tier => do
    let left ← link n tier
    chainFrom n tier left

def chainFrom : ℕ → Tier → Operand → Reader Operand
  | 0, _, _ => stuck
  | n + 1, tier, left => do
    let m ← peek ms
    match m.lexeme? with
    | some (.arithmetic op) =>
      if tier.joins op then do
        let _ ← advance ms
        let right ← link n tier
        chainFrom n tier (.arithmetic left op right)
      else pure left
    | _ => pure left

def link : ℕ → Tier → Reader Operand
  | 0, _ => stuck
  | n + 1, .sum => chain n .product
  | n + 1, .product => operand n

def operand : ℕ → Reader Operand
  | 0 => stuck
  | n + 1 => do
    let m ← advance ms
    match m.lexeme? with
    | none => fail .unexpectedEnd m.offset
    | some (.path text) => do
      match ← ofOption (path? text) with
      | .ok p => pure (.path p)
      | .error (fault, d) => fail (.ofPath text fault) (m.offset + d)
    | some (.literal l) => pure (.literal l)
    | some .openParen => parenthesized ms limit m.offset (chain n .sum)
    | some l => fail (.unexpectedToken l) m.offset

end

/-! ### Conditions -/

/-- The literals of a list that opens at byte `start`. -/
def literals (start : ℕ) : ℕ → Reader (List Literal)
  | 0 => stuck
  | n + 1 => do
    let m ← advance ms
    match m.lexeme? with
    | some (.literal l) => do
      let u ← advance ms
      match u.lexeme? with
      | some .comma => do
        let ls ← literals start n
        pure (l :: ls)
      | some .closeBracket => pure [l]
      | none => fail .unexpectedEnd start
      | some l => fail (.unexpectedToken l) u.offset
    | none => fail .unexpectedEnd m.offset
    | some l => fail (.malformedLiteral l) m.offset

def listLiteral (n : ℕ) : Reader (List Literal) := do
  let first ← advance ms
  let m ← peek ms
  if m.lexeme? = some .closeBracket then do
    let _ ← advance ms
    pure []
  else literals ms first.offset n

def argument (n : ℕ) (verb : Verb) : Reader Argument := do
  let m ← peek ms
  if m.lexeme? = some .openBracket then
    if verb.isMembership then do
      let ls ← listLiteral ms n
      pure (.list ls)
    else fail (.unexpectedToken .openBracket) m.offset
  else do
    let e ← chain ms limit n .sum
    pure (.operand e)

def predicate (n : ℕ) : Reader Rule := do
  let left ← chain ms limit n .sum
  let m ← advance ms
  match m.lexeme? with
  | some (.relation op) => do
    let right ← chain ms limit n .sum
    pure (.comparison left op right)
  | some (.verb v) => do
    let a ← argument ms limit n v
    pure (.predicate left v a)
  | some (.path word) => fail (.unknownOperator word) m.offset
  | none => fail .unexpectedEnd m.offset
  | some l => fail (.unexpectedToken l) m.offset

/-- What follows the parenthesis that closes the first one that opens is an operator of
operands; `level` have been opened so far. -/
def opensOperand? : ℕ → List Mark → Option Bool
  | _, [] => some false
  | level, m :: ms =>
    match m.lexeme? with
    | some .openParen => opensOperand? (level + 1) ms
    | some .closeParen => (sub? level 1).bind fun level =>
      if level = 0 then some (ms.head?.any fun m => m.lexeme?.any (·.followsOperand))
      else opensOperand? level ms
    | none => some false
    | some _ => opensOperand? level ms

mutual

def group : ℕ → Reader Rule
  | 0 => stuck
  | n + 1 => do
    let first ← term n
    let more ← terms n none [first]
    match more.1 with
    | some op => pure (.group op more.2)
    | none => ofOption more.2.head?

/-- Further terms, after those that were read, with the connective between these. -/
def terms : ℕ → Option Connective → List Rule → Reader (Option Connective × List Rule)
  | 0, _, _ => stuck
  | n + 1, connective, rules => do
    let m ← peek ms
    match m.lexeme? with
    | some (.connective op) =>
      match connective.filter (· ≠ op) with
      | some expected => fail (.mixedConnectives expected op) m.offset
      | none => do
        let _ ← advance ms
        let r ← term n
        terms n (some op) (rules ++ [r])
    | _ => pure (connective, rules)

def term : ℕ → Reader Rule
  | 0 => stuck
  | n + 1 => do
    let m ← peek ms
    if m.lexeme? = some .openParen then do
      let c ← get
      let opens ← ofOption (opensOperand? 0 (ms.drop c.pos))
      if opens then predicate ms limit n
      else do
        let _ ← advance ms
        parenthesized ms limit m.offset (group n)
    else predicate ms limit n

end

/-- A rule that takes all the tokens. -/
def rule (n : ℕ) : Reader Rule := do
  let m ← peek ms
  if m.lexeme? = none then fail .emptySubexpression 0
  else do
    let r ← group ms limit n
    let m ← peek ms
    match m.lexeme? with
    | none => pure r
    | some .closeParen => fail .unbalancedParenthesis m.offset
    | some l => fail (.unexpectedToken l) m.offset

end

end RecordRules.Positions
