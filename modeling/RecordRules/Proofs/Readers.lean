import RecordRules.Rule.Parse

/-!
The readers of the parser without the bounds they carry.

A reader of the parser gives back what is left together with a proof that it is shorter.
Here the proof is dropped, and each reader gets the equation that says how it is put
together from the others; nothing else has to look inside the readers.
-/

namespace RecordRules.Readers

open Parse (Fault Tier)

variable {α : Type} {p : List Token → Prop}

/-- The outcome of a reader with what is left as a plain list. -/
def plain : Except Fault (α × { r : List Token // p r }) → Except Fault (α × List Token)
  | .error e => .error e
  | .ok (a, r) => .ok (a, r.1)

theorem plain_eq_ok {x : Except Fault (α × { r : List Token // p r })} {a : α} {r : List Token}
    (h : plain x = .ok (a, r)) : ∃ hr, x = .ok (a, ⟨r, hr⟩) := by
  rcases x with e | ⟨b, s, hs⟩
  · simp [plain] at h
  · simp only [plain, Except.ok.injEq, Prod.mk.injEq] at h
    obtain ⟨rfl, rfl⟩ := h
    exact ⟨hs, rfl⟩

/-- What a mapped outcome is the image of. -/
theorem exists_of_map {ε β γ : Type} {f : β → γ} {x : Except ε β} {c : γ}
    (h : x.map f = .ok c) : ∃ b, x = .ok b ∧ f b = c := by
  rcases x with e | b
  · cases h
  · exact ⟨b, rfl, Except.ok.inj h⟩

variable (stop : Nat) (limit : Option Nat)

def chain (tier : Tier) (depth : Nat) (ts : List Token) : Except Fault (Operand × List Token) :=
  plain (Parse.chain stop limit tier depth ts)

def chainFrom (tier : Tier) (depth : Nat) (left : Operand) (ts : List Token) :
    Except Fault (Operand × List Token) :=
  plain (Parse.chainFrom stop limit tier depth left ts)

def link (tier : Tier) (depth : Nat) (ts : List Token) : Except Fault (Operand × List Token) :=
  plain (Parse.link stop limit tier depth ts)

def operand (depth : Nat) (ts : List Token) : Except Fault (Operand × List Token) :=
  plain (Parse.operand stop limit depth ts)

def literals (start : Nat) (ts : List Token) : Except Fault (List Literal × List Token) :=
  plain (Parse.literals stop start ts)

def listLiteral (start : Nat) (ts : List Token) : Except Fault (List Literal × List Token) :=
  plain (Parse.listLiteral stop start ts)

def argument (depth : Nat) (verb : Verb) (ts : List Token) :
    Except Fault (Argument × List Token) :=
  plain (Parse.argument stop limit depth verb ts)

def predicate (depth : Nat) (ts : List Token) : Except Fault (Rule × List Token) :=
  plain (Parse.predicate stop limit depth ts)

def group (depth : Nat) (ts : List Token) : Except Fault (Rule × List Token) :=
  plain (Parse.group stop limit depth ts)

def terms (depth : Nat) (op : Connective) (ts : List Token) :
    Except Fault (List Rule × List Token) :=
  plain (Parse.terms stop limit depth op ts)

def term (depth : Nat) (ts : List Token) : Except Fault (Rule × List Token) :=
  plain (Parse.term stop limit depth ts)

/-- What is left after the parenthesis that closes the one opened at `start`. -/
def close (start : Nat) : List Token → Except Fault (List Token)
  | [] => .error (.unbalancedParenthesis, start)
  | t :: r =>
    if t.lexeme = .closeParen then .ok r else .error (.unexpectedToken t.lexeme, t.offset)

variable {stop limit} {tier : Tier} {depth start : Nat} {left e : Operand} {op : Connective}
  {verb : Verb} {ts r : List Token} {t : Token}

theorem closeParen_eq (start : Nat) (ts : List Token) :
    (Parse.closeParen start ts).map Subtype.val = close start ts := by
  cases ts with
  | nil => rfl
  | cons t r =>
    simp only [Parse.closeParen, close]
    split <;> rfl

/-! ### What is left is shorter -/

theorem length_chain (h : chain stop limit tier depth ts = .ok (e, r)) : r.length < ts.length :=
  (plain_eq_ok h).1

theorem length_link (h : link stop limit tier depth ts = .ok (e, r)) : r.length < ts.length :=
  (plain_eq_ok h).1

theorem length_term {rule : Rule} (h : term stop limit depth ts = .ok (rule, r)) :
    r.length < ts.length :=
  (plain_eq_ok h).1

theorem length_group {rule : Rule} (h : group stop limit depth ts = .ok (rule, r)) :
    r.length < ts.length :=
  (plain_eq_ok h).1

/-! ### Operands -/

theorem chain_eq : chain stop limit tier depth ts =
    match link stop limit tier depth ts with
    | .error e => .error e
    | .ok (left, r) => chainFrom stop limit tier depth left r := by
  unfold chain link
  rw [Parse.chain]
  rcases Parse.link stop limit tier depth ts with e | ⟨left, r, h⟩
  · rfl
  · simp only [plain, chainFrom]
    rcases Parse.chainFrom stop limit tier depth left r with e | ⟨e, r', h'⟩ <;> rfl

theorem chainFrom_nil : chainFrom stop limit tier depth left [] = .ok (left, []) := by
  unfold chainFrom
  rw [Parse.chainFrom]
  rfl

theorem chainFrom_cons : chainFrom stop limit tier depth left (t :: r) =
    match t.lexeme with
    | .arithmetic op =>
      if tier.joins op then
        match link stop limit tier depth r with
        | .error e => .error e
        | .ok (right, r₁) => chainFrom stop limit tier depth (.arithmetic left op right) r₁
      else .ok (left, t :: r)
    | _ => .ok (left, t :: r) := by
  unfold chainFrom link
  rw [Parse.chainFrom]
  rcases t with ⟨l, o⟩
  cases l with
  | arithmetic op =>
    simp only
    by_cases hj : tier.joins op = true
    · rw [if_pos hj, if_pos hj]
      rcases Parse.link stop limit tier depth r with e | ⟨right, r₁, h₁⟩
      · rfl
      · simp only [plain]
        rcases Parse.chainFrom stop limit tier depth (.arithmetic left op right) r₁ with
          e | ⟨e, r₂, h₂⟩ <;> rfl
    · rw [if_neg hj, if_neg hj]
      rfl
  | _ => rfl

theorem link_sum : link stop limit .sum depth ts = chain stop limit .product depth ts := by
  unfold link chain
  rw [Parse.link]

theorem link_product : link stop limit .product depth ts = operand stop limit depth ts := by
  unfold link operand
  rw [Parse.link]

theorem operand_nil : operand stop limit depth [] = .error (.unexpectedEnd, stop) := by
  unfold operand
  rw [Parse.operand]
  rfl

theorem operand_cons : operand stop limit depth (t :: r) =
    match t.lexeme with
    | .path text =>
      match Path.read text with
      | .ok p => .ok (.path p, r)
      | .error (fault, d) => .error (.ofPath text fault, t.offset + d)
    | .literal l => .ok (.literal l, r)
    | .openParen =>
      match Parse.tooDeep limit depth with
      | some n => .error (.nestingTooDeep n, t.offset)
      | none =>
        if Parse.closesAtOnce r then .error (.emptySubexpression, t.offset)
        else
          match chain stop limit .sum (depth + 1) r with
          | .error e => .error e
          | .ok (e, r₁) => (close t.offset r₁).map fun r₂ => (e, r₂)
    | l => .error (.unexpectedToken l, t.offset) := by
  unfold operand chain
  rw [Parse.operand]
  rcases t with ⟨l, o⟩
  cases l with
  | path text =>
    simp only
    rcases Path.read text with ⟨fault, d⟩ | p <;> rfl
  | openParen =>
    simp only
    cases Parse.tooDeep limit depth with
    | some n => rfl
    | none =>
      simp only
      by_cases hc : Parse.closesAtOnce r = true
      · rw [if_pos hc, if_pos hc]
        rfl
      · rw [if_neg hc, if_neg hc]
        rcases Parse.chain stop limit .sum (depth + 1) r with e | ⟨e, r₁, h₁⟩
        · rfl
        · simp only [plain, ← closeParen_eq]
          rcases Parse.closeParen o r₁ with e | ⟨r₂, h₂⟩ <;> rfl
  | _ => rfl

/-! ### Conditions -/

theorem literals_nil : literals stop start [] = .error (.unexpectedEnd, stop) := rfl

theorem literals_cons : literals stop start (t :: r) =
    match t.lexeme with
    | .literal l =>
      match r with
      | [] => .error (.unexpectedEnd, start)
      | u :: r₁ =>
        match u.lexeme with
        | .comma =>
          match literals stop start r₁ with
          | .error e => .error e
          | .ok (ls, r₂) => .ok (l :: ls, r₂)
        | .closeBracket => .ok ([l], r₁)
        | l => .error (.unexpectedToken l, u.offset)
    | l => .error (.malformedLiteral l, t.offset) := by
  unfold literals
  rcases t with ⟨l, o⟩
  rcases r with _ | ⟨⟨l', o'⟩, r₁⟩
  · rw [Parse.literals]
    cases l <;> rfl
  · rw [Parse.literals]
    cases l with
    | literal l =>
      simp only
      cases l' with
      | comma =>
        simp only
        rcases Parse.literals stop start r₁ with e | ⟨ls, r₂, h₂⟩ <;> rfl
      | _ => rfl
    | _ => rfl

theorem listLiteral_cons : listLiteral stop start (t :: r) =
    if t.lexeme = .closeBracket then .ok ([], r) else literals stop start (t :: r) := by
  unfold listLiteral literals
  rw [Parse.listLiteral]
  split <;> rfl

theorem argument_nil : argument stop limit depth verb [] = .error (.unexpectedEnd, stop) := rfl

theorem argument_cons : argument stop limit depth verb (t :: r) =
    if t.lexeme = .openBracket then
      if verb.isMembership then
        (listLiteral stop t.offset r).map fun x => (.list x.1, x.2)
      else .error (.unexpectedToken .openBracket, t.offset)
    else (chain stop limit .sum depth (t :: r)).map fun x => (.operand x.1, x.2) := by
  unfold argument listLiteral chain
  rw [Parse.argument]
  split
  · split
    · rcases Parse.listLiteral stop t.offset r with e | ⟨ls, r', h⟩ <;> rfl
    · rfl
  · rcases Parse.chain stop limit .sum depth (t :: r) with e | ⟨e, r', h⟩ <;> rfl

theorem predicate_eq : predicate stop limit depth ts =
    match chain stop limit .sum depth ts with
    | .error e => .error e
    | .ok (_, []) => .error (.unexpectedEnd, stop)
    | .ok (left, t :: r) =>
      match t.lexeme with
      | .relation op =>
        (chain stop limit .sum depth r).map fun x => (.comparison left op x.1, x.2)
      | .verb v => (argument stop limit depth v r).map fun x => (.predicate left v x.1, x.2)
      | .path word => .error (.unknownOperator word, t.offset)
      | l => .error (.unexpectedToken l, t.offset) := by
  unfold predicate chain argument
  rw [Parse.predicate]
  rcases Parse.chain stop limit .sum depth ts with e | ⟨left, _ | ⟨⟨l, o⟩, r⟩, h⟩
  · rfl
  · rfl
  · simp only [plain]
    cases l with
    | relation op =>
      simp only
      rcases Parse.chain stop limit .sum depth r with e | ⟨right, r', h'⟩ <;> rfl
    | verb v =>
      simp only
      rcases Parse.argument stop limit depth v r with e | ⟨a, r', h'⟩ <;> rfl
    | _ => rfl

theorem group_eq : group stop limit depth ts =
    match term stop limit depth ts with
    | .error e => .error e
    | .ok (first, []) => .ok (first, [])
    | .ok (first, t :: r) =>
      match t.lexeme with
      | .connective op =>
        (terms stop limit depth op (t :: r)).map fun x => (.group op (first :: x.1), x.2)
      | _ => .ok (first, t :: r) := by
  unfold group term terms
  rw [Parse.group]
  rcases Parse.term stop limit depth ts with e | ⟨first, _ | ⟨⟨l, o⟩, r⟩, h⟩
  · rfl
  · rfl
  · simp only [plain]
    cases l with
    | connective op =>
      simp only
      rcases Parse.terms stop limit depth op (⟨.connective op, o⟩ :: r) with e | ⟨more, r', h'⟩ <;>
        rfl
    | _ => rfl

theorem terms_nil : terms stop limit depth op [] = .ok ([], []) := by
  unfold terms
  rw [Parse.terms]
  rfl

theorem terms_cons : terms stop limit depth op (t :: r) =
    match t.lexeme with
    | .connective op' =>
      if op' = op then
        match term stop limit depth r with
        | .error e => .error e
        | .ok (first, r₁) => (terms stop limit depth op r₁).map fun x => (first :: x.1, x.2)
      else .error (.mixedConnectives op op', t.offset)
    | _ => .ok ([], t :: r) := by
  unfold term terms
  rw [Parse.terms]
  rcases t with ⟨l, o⟩
  cases l with
  | connective op' =>
    simp only
    split
    · rcases Parse.term stop limit depth r with e | ⟨first, r₁, h₁⟩
      · rfl
      · simp only [plain]
        rcases Parse.terms stop limit depth op r₁ with e | ⟨more, r₂, h₂⟩ <;> rfl
    · rfl
  | _ => rfl

theorem term_nil : term stop limit depth [] = predicate stop limit depth [] := by
  unfold term predicate
  rw [Parse.term]

theorem term_cons : term stop limit depth (t :: r) =
    if t.lexeme = .openParen ∧ Parse.opensOperand 0 r = false then
      match Parse.tooDeep limit depth with
      | some n => .error (.nestingTooDeep n, t.offset)
      | none =>
        if Parse.closesAtOnce r then .error (.emptySubexpression, t.offset)
        else
          match group stop limit (depth + 1) r with
          | .error e => .error e
          | .ok (rule, r₁) => (close t.offset r₁).map fun r₂ => (rule, r₂)
    else predicate stop limit depth (t :: r) := by
  unfold term group predicate
  rw [Parse.term]
  split
  · cases Parse.tooDeep limit depth with
    | some n => rfl
    | none =>
      simp only
      split
      · rfl
      · rcases Parse.group stop limit (depth + 1) r with e | ⟨rule, r₁, h₁⟩
        · rfl
        · simp only [plain, ← closeParen_eq]
          rcases Parse.closeParen t.offset r₁ with e | ⟨r₂, h₂⟩ <;> rfl
  · rfl

theorem rule_cons : Parse.rule stop limit (t :: r) =
    match group stop limit 0 (t :: r) with
    | .error e => .error e
    | .ok (rule, []) => .ok rule
    | .ok (_, u :: _) =>
      if u.lexeme = .closeParen then .error (.unbalancedParenthesis, u.offset)
      else .error (.unexpectedToken u.lexeme, u.offset) := by
  unfold group
  rw [Parse.rule]
  rcases Parse.group stop limit 0 (t :: r) with e | ⟨rule, _ | ⟨u, r'⟩, h⟩ <;> rfl

/-! ### Parentheses -/

/-- What comes of reading in a parenthesis that opened at `start`, where `y` is read. -/
def enclosed (limit : Option Nat) (depth start : Nat) (ts : List Token)
    (y : Except Fault (α × List Token)) : Except Fault (α × List Token) :=
  match Parse.tooDeep limit depth with
  | some n => .error (.nestingTooDeep n, start)
  | none =>
    if Parse.closesAtOnce ts then .error (.emptySubexpression, start)
    else y.bind fun x => (close start x.2).map fun r => (x.1, r)

theorem operand_enclosed : operand stop limit depth (⟨.openParen, start⟩ :: r) =
    enclosed limit depth start r (chain stop limit .sum (depth + 1) r) := by
  rw [operand_cons]
  unfold enclosed
  dsimp only
  cases Parse.tooDeep limit depth with
  | some n => rfl
  | none =>
    dsimp only
    split
    · rfl
    · cases chain stop limit .sum (depth + 1) r <;> rfl

theorem term_enclosed (h : Parse.opensOperand 0 r = false) :
    term stop limit depth (⟨.openParen, start⟩ :: r) =
      enclosed limit depth start r (group stop limit (depth + 1) r) := by
  rw [term_cons, if_pos ⟨rfl, h⟩]
  unfold enclosed
  dsimp only
  cases Parse.tooDeep limit depth with
  | some n => rfl
  | none =>
    dsimp only
    split
    · rfl
    · cases group stop limit (depth + 1) r <;> rfl

theorem term_plain (h : ¬(t.lexeme = .openParen ∧ Parse.opensOperand 0 r = false)) :
    term stop limit depth (t :: r) = predicate stop limit depth (t :: r) := by
  rw [term_cons, if_neg h]

end RecordRules.Readers
