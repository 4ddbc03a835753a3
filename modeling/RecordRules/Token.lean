import RecordRules.Error

/-!
Splitting the text of a rule into tokens.

The scan takes one lexeme after the other off the front and skips the blanks between. A
minus before a digit belongs to the number unless an operand has just ended. Symbols of
two characters are tried before those of one. A scan that fails gives the text from the
fault on.
-/

namespace RecordRules.Token

open Text

/-- A lexeme, its characters, and what follows them. -/
structure Scanned where
  lexeme : Lexeme
  text : List Char
  rest : List Char

/-- The lexemes that are spelled in one way alone. -/
def symbols : List (List Char × Lexeme) := [
  (['=', '='], .relation .eq),
  (['!', '='], .relation .ne),
  (['<', '='], .relation .le),
  (['>', '='], .relation .ge),
  (['&', '&'], .connective .and),
  (['|', '|'], .connective .or),
  (['<'], .relation .lt),
  (['>'], .relation .gt),
  (['('], .openParen),
  ([')'], .closeParen),
  (['['], .openBracket),
  ([']'], .closeBracket),
  ([','], .comma),
  (['+'], .arithmetic .add),
  (['-'], .arithmetic .sub),
  (['*'], .arithmetic .mul),
  (['/'], .arithmetic .div),
  (['%'], .arithmetic .rem)]

def symbol? (cs : List Char) : Option Scanned :=
  (symbols.find? fun s => s.1.isPrefixOf cs).map fun s => ⟨s.2, s.1, cs.drop s.1.length⟩

/-- The longest run of digits, points and exponent letters, a sign after such a letter
included, and what follows it. -/
def spanNumber : List Char → List Char × List Char
  | [] => ([], [])
  | c :: cs =>
    if c.isDigit || c == '.' then (spanNumber cs).map (c :: ·) id
    else if c == 'e' || c == 'E' then
      match cs with
      | [] => ([c], [])
      | s :: cs' =>
        if s == '+' || s == '-' then (spanNumber cs').map (c :: s :: ·) id
        else (spanNumber (s :: cs')).map (c :: ·) id
    else ([], c :: cs)

/-- The number that a text spells: a floating-point one if it has a point or an exponent
letter, and then a finite one, and otherwise an integer of 64 bits. -/
def numberLiteral? (text : List Char) : Option Literal :=
  if text.any fun c => c == '.' || c == 'e' || c == 'E' then
    match Number.readFloat? text with
    | some x => if x.isFinite then some (.float x) else none
    | none => none
  else (Number.readInt64? text).map .int

/-- A number whose first character is `c`. Letters that follow it directly make it
malformed. -/
def number (c : Char) (cs : List Char) : Except (LexFault × List Char) Scanned :=
  let body := spanNumber cs
  let text := c :: body.1 ++ body.2.takeWhile isIdentPart
  match numberLiteral? text with
  | some l => .ok ⟨.literal l, text, body.2.dropWhile isIdentPart⟩
  | none => .error (.malformedNumber (String.ofList text), c :: cs)

/-- How the brackets of an index end: closed, in a quote that is not closed, or not at
all. -/
inductive Bracketed where
  | closed (text rest : List Char)
  | openQuote (rest : List Char)
  | unclosed

def Bracketed.push (text : List Char) : Bracketed → Bracketed
  | closed t r => closed (text ++ t) r
  | openQuote f => openQuote f
  | unclosed => unclosed

/-- Reads on from an opening bracket to the first closing one outside quotes. -/
def bracketed (cs : List Char) : Bracketed :=
  match cs with
  | [] => .unclosed
  | c :: r =>
    if c = ']' then .closed [c] r
    else if isQuote c then
      match h : Quoted.read c r with
      | none => .openQuote (c :: r)
      | some q =>
        have := Quoted.length_rest_lt h
        (bracketed q.rest).push (c :: q.text)
    else (bracketed r).push [c]
termination_by cs.length
decreasing_by all_goals simp only [List.length_cons]; omega

theorem Bracketed.closed_of_push {b : Bracketed} {u t r : List Char} (h : b.push u = closed t r) :
    ∃ t', b = closed t' r ∧ t = u ++ t' := by
  cases b with
  | closed t' r' =>
    simp only [push, closed.injEq] at h
    exact ⟨t', by rw [h.2], h.1.symm⟩
  | openQuote f => simp [push] at h
  | unclosed => simp [push] at h

theorem bracketed_text {cs t r : List Char} (h : bracketed cs = .closed t r) :
    t ++ r = cs ∧ t ≠ [] := by
  fun_induction bracketed cs generalizing t r with
  | case1 => simp at h
  | case2 => simp at h; simp [← h.1, ← h.2]
  | case3 => simp at h
  | case4 c cs _ _ q hq _ ih =>
    obtain ⟨t', h', rfl⟩ := Bracketed.closed_of_push h
    have := (Quoted.read_text hq).1
    simp [(ih h').1, this]
  | case5 c cs _ _ ih =>
    obtain ⟨t', h', rfl⟩ := Bracketed.closed_of_push h
    simp [(ih h').1]

/-- The steps of a path after its first identifier: the longest run of points with an
identifier after them and of indices. -/
def steps (cs : List Char) : Except (LexFault × List Char) (List Char × List Char) :=
  match cs with
  | [] => .ok ([], [])
  | c :: r =>
    if c = '.' then
      match r with
      | [] => .ok ([], ['.'])
      | d :: r' =>
        if isIdentStart d then
          match steps (r'.dropWhile isIdentPart) with
          | .error e => .error e
          | .ok (t, u) => .ok ('.' :: d :: r'.takeWhile isIdentPart ++ t, u)
        else .ok ([], '.' :: d :: r')
    else if c = '[' then
      match h : bracketed r with
      | .unclosed => .error (.unterminatedIndex, c :: r)
      | .openQuote f => .error (.unterminatedString, f)
      | .closed t u =>
        have : u.length < r.length := by
          have h' := bracketed_text h
          have := List.length_pos_iff.2 h'.2
          rw [← h'.1, List.length_append]
          omega
        match steps u with
        | .error e => .error e
        | .ok (t', u') => .ok ('[' :: t ++ t', u')
    else .ok ([], c :: r)
termination_by cs.length
decreasing_by
  · have := (List.dropWhile_sublist isIdentPart (l := r')).length_le
    simp only [List.length_cons]
    omega
  · simp only [List.length_cons]
    omega

/-- What a word without steps means. -/
def wordLexeme (word : String) : Lexeme :=
  if word = "true" then .literal (.bool true)
  else if word = "false" then .literal (.bool false)
  else match Verb.ofKeyword? word with
    | some v => .verb v
    | none => .path word

/-- A word whose first character is `c`, with the steps of a path. -/
def word (c : Char) (cs : List Char) : Except (LexFault × List Char) Scanned :=
  let name := c :: cs.takeWhile isIdentPart
  match steps (cs.dropWhile isIdentPart) with
  | .error e => .error e
  | .ok ([], r) => .ok ⟨wordLexeme (String.ofList name), name, r⟩
  | .ok (t, r) => .ok ⟨.path (String.ofList (name ++ t)), name ++ t, r⟩

/-- A number begins here. -/
def startsNumber (afterOperand : Bool) (c : Char) (cs : List Char) : Bool :=
  c.isDigit || c == '-' && !afterOperand && cs.head?.any (·.isDigit)

/-- The lexeme whose first character is `c`. -/
def scanOne (afterOperand : Bool) (c : Char) (cs : List Char) :
    Except (LexFault × List Char) Scanned :=
  if startsNumber afterOperand c cs then number c cs
  else match symbol? (c :: cs) with
    | some s => .ok s
    | none =>
      if isQuote c then
        match Quoted.read c cs with
        | some q => .ok ⟨.literal (.str (String.ofList q.value)), c :: q.text, q.rest⟩
        | none => .error (.unterminatedString, c :: cs)
      else if isIdentStart c then word c cs
      else .error (.unexpectedChar c, c :: cs)

theorem spanNumber_text (cs : List Char) : (spanNumber cs).1 ++ (spanNumber cs).2 = cs := by
  fun_induction spanNumber cs <;> simp_all

theorem steps_text {cs t u : List Char} (h : steps cs = .ok (t, u)) : t ++ u = cs := by
  fun_induction steps cs generalizing t u with
  | case4 d r' _ t' u' h' ih =>
    simp only [Except.ok.injEq, Prod.mk.injEq] at h
    obtain ⟨rfl, rfl⟩ := h
    have := ih h'
    simp [this, List.takeWhile_append_dropWhile]
  | case9 r t₁ u₁ hb _ t₂ u₂ hs _ ih =>
    simp only [Except.ok.injEq, Prod.mk.injEq] at h
    obtain ⟨rfl, rfl⟩ := h
    simp [ih hs, (bracketed_text hb).1]
  | _ => simp_all

theorem symbol?_text {cs : List Char} {s : Scanned} (h : symbol? cs = some s) :
    s.text ++ s.rest = cs ∧ s.text ≠ [] := by
  obtain ⟨e, he, rfl⟩ := Option.map_eq_some_iff.1 h
  have hp : e.1 <+: cs := by simpa using List.find?_some he
  obtain ⟨r, rfl⟩ := hp
  refine ⟨by simp, ?_⟩
  have hm := List.mem_of_find?_eq_some he
  have : ∀ s ∈ symbols, s.1 ≠ [] := by decide
  exact this e hm

theorem number_text {c : Char} {cs : List Char} {s : Scanned} (h : number c cs = .ok s) :
    s.text ++ s.rest = c :: cs ∧ s.text ≠ [] := by
  simp only [number] at h
  split at h
  · cases h
    have := spanNumber_text cs
    simp [List.takeWhile_append_dropWhile, this]
  · simp at h

theorem word_text {c : Char} {cs : List Char} {s : Scanned} (h : word c cs = .ok s) :
    s.text ++ s.rest = c :: cs ∧ s.text ≠ [] := by
  simp only [word] at h
  split at h
  · simp at h
  · next hs =>
    cases h
    have := steps_text hs
    simp only [List.nil_append] at this
    simp [this, List.takeWhile_append_dropWhile]
  · next hs =>
    cases h
    simp [steps_text hs, List.takeWhile_append_dropWhile]

/-- Scanning loses nothing and takes something. -/
theorem scanOne_text {b : Bool} {c : Char} {cs : List Char} {s : Scanned}
    (h : scanOne b c cs = .ok s) : s.text ++ s.rest = c :: cs ∧ s.text ≠ [] := by
  simp only [scanOne] at h
  split at h
  · exact number_text h
  · split at h
    · next hs =>
      cases h
      exact symbol?_text hs
    · split at h
      · split at h
        · next hq =>
          cases h
          simp [(Quoted.read_text hq).1]
        · simp at h
      · split at h
        · exact word_text h
        · simp at h

/-- The tokens of a text that begins at byte `offset`. -/
def scanFrom (offset : Nat) (afterOperand : Bool) (cs : List Char) :
    Except (LexFault × Nat) (List Token) :=
  match cs with
  | [] => .ok []
  | c :: r =>
    if isBlank c then scanFrom (offset + c.utf8Size) afterOperand r
    else
      match h : scanOne afterOperand c r with
      | .error (fault, f) => .error (fault, offset + (bytes (c :: r) - bytes f))
      | .ok s =>
        have : s.rest.length < (c :: r).length := by
          have h' := scanOne_text h
          have := List.length_pos_iff.2 h'.2
          rw [← h'.1, List.length_append]
          omega
        match scanFrom (offset + bytes s.text) s.lexeme.endsOperand s.rest with
        | .error e => .error e
        | .ok ts => .ok (⟨s.lexeme, offset⟩ :: ts)
termination_by cs.length
decreasing_by
  · simp
  · exact this

/-- The tokens of a rule. The end of the text is no token: it is where the list ends. -/
def scan (source : String) : Except RuleError (List Token) :=
  match scanFrom 0 false source.toList with
  | .ok ts => .ok ts
  | .error (fault, offset) => .error (.lex fault offset)

end RecordRules.Token
