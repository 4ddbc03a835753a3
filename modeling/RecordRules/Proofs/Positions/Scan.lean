import RecordRules.Proofs.PathTokens
import RecordRules.Proofs.Positions.Slice

/-!
The scan by positions. The text of a number or a word is what stands between the byte where
its first character begins and the byte where the character after it does. It is always there,
and the scan by positions is the scan.
-/

namespace RecordRules.Positions

open Text Token

/-- A token, or the end of the text, with the byte where it begins. -/
structure Mark where
  lexeme? : Option Lexeme
  offset : ℕ

/-- The tokens and the end of the text. -/
def marks (stop : ℕ) (ts : List Token) : List Mark :=
  ts.map (fun t => ⟨some t.lexeme, t.offset⟩) ++ [⟨none, stop⟩]

/-! ### The scan -/

/-- The number at a position, and the position after it. -/
def number? (cs : List Char) (pos : ℕ) : Option (Except (LexFault × ℕ) (Lexeme × ℕ)) :=
  let body := spanNumber (cs.drop (pos + 1))
  let stop := pos + (1 + body.1.length + (body.2.takeWhile isIdentPart).length)
  (slice? cs (offsetAt cs pos) (offsetAt cs stop)).map fun text =>
    match numberLiteral? text with
    | some l => .ok (.literal l, stop)
    | none => .error (.malformedNumber (String.ofList text), offsetAt cs pos)

/-- The word at a position with its steps, and the position after it. -/
def word? (cs : List Char) (pos : ℕ) : Option (Except (LexFault × ℕ) (Lexeme × ℕ)) :=
  let name := pos + (1 + ((cs.drop (pos + 1)).takeWhile isIdentPart).length)
  match steps (cs.drop name) with
  | .error (fault, f) => some (.error (fault, offsetAt cs (cs.length - f.length)))
  | .ok (t, _) =>
    let stop := name + t.length
    (slice? cs (offsetAt cs pos) (offsetAt cs stop)).map fun text =>
      .ok (if t.isEmpty then wordLexeme (String.ofList text) else .path (String.ofList text), stop)

/-- The lexeme at a position, and the position after it. -/
def lexeme? (cs : List Char) (pos : ℕ) (afterOperand : Bool) :
    Option (Except (LexFault × ℕ) (Lexeme × ℕ)) :=
  cs[pos]?.bind fun c =>
    let rest := cs.drop (pos + 1)
    if startsNumber afterOperand c rest then number? cs pos
    else match symbol? (c :: rest) with
      | some s => some (.ok (s.lexeme, pos + s.text.length))
      | none =>
        if isQuote c then
          match Quoted.read c rest with
          | some q =>
            some (.ok (.literal (.str (String.ofList q.value)), pos + (1 + q.text.length)))
          | none => some (.error (.unterminatedString, offsetAt cs pos))
        else if isIdentStart c then word? cs pos
        else some (.error (.unexpectedChar c, offsetAt cs pos))

/-- The tokens from a position on, with at most so many steps. -/
def tokens? (cs : List Char) :
    ℕ → ℕ → Bool → Option (Except (LexFault × ℕ) (List Mark))
  | 0, _, _ => none
  | n + 1, pos, afterOperand =>
    match cs[pos]? with
    | none => some (.ok [⟨none, bytes cs⟩])
    | some c =>
      if isBlank c then tokens? cs n (pos + 1) afterOperand
      else match lexeme? cs pos afterOperand with
        | none => none
        | some (.error e) => some (.error e)
        | some (.ok (l, stop)) =>
          (tokens? cs n stop l.endsOperand).map (Except.map (⟨some l, offsetAt cs pos⟩ :: ·))

/-! ### Where a scan stops -/

variable {cs u r f : List Char} {c : Char} {b : Bool} {fault : LexFault} {pos : ℕ}

lemma bracketed_suffix (h : bracketed cs = .openQuote f) : f <:+ cs := by
  have push {t : List Char} {v : Bracketed} (h : v.push t = .openQuote f) : v = .openQuote f := by
    cases v with
    | openQuote => exact h
    | closed | unclosed => cases h
  fun_induction bracketed cs with
  | case1 => cases h
  | case2 => cases h
  | case3 c r hc hq hread =>
    cases h
    exact List.suffix_refl _
  | case4 c r hc hq q hread hlt ih =>
    have hrest : q.rest <:+ r := ⟨q.text, (Quoted.read_text hread).1⟩
    exact ((ih (push h)).trans hrest).trans (List.suffix_cons c r)
  | case5 c r hc hq ih => exact (ih (push h)).trans (List.suffix_cons c r)

lemma steps_suffix (h : steps cs = .error (fault, f)) : f <:+ cs := by
  fun_induction steps cs with
  | case1 => cases h
  | case2 => cases h
  | case3 d v hd e he ih =>
    cases h
    have hv : v.dropWhile isIdentPart <:+ v := List.dropWhile_suffix _
    exact ((ih he).trans hv).trans ((List.suffix_cons d v).trans (List.suffix_cons '.' _))
  | case4 => cases h
  | case5 => cases h
  | case6 v hb =>
    cases h
    exact List.suffix_refl _
  | case7 v f' hb =>
    cases h
    exact (bracketed_suffix hb).trans (List.suffix_cons '[' v)
  | case8 v t w hb hlt e he hne ih =>
    cases h
    have hw : w <:+ v := ⟨t, (bracketed_text hb).1⟩
    exact ((ih he).trans hw).trans (List.suffix_cons '[' v)
  | case9 => cases h
  | case10 => cases h

/-- The place that a fault of the scan gives is a rest of the text. -/
lemma scanOne_suffix (h : scanOne b c r = .error (fault, f)) : f <:+ c :: r := by
  unfold scanOne at h
  split at h
  · unfold number at h
    dsimp only at h
    split at h
    · cases h
    · cases h
      exact List.suffix_refl _
  · split at h
    · cases h
    · split at h
      · split at h
        · cases h
        · cases h
          exact List.suffix_refl _
      · split at h
        · unfold word at h
          dsimp only at h
          split at h
          · next hs =>
            cases h
            have hr : r.dropWhile isIdentPart <:+ r := List.dropWhile_suffix _
            exact ((steps_suffix hs).trans hr).trans (List.suffix_cons c r)
          · cases h
          · cases h
        · cases h
          exact List.suffix_refl _

/-! ### The scan by positions is the scan -/

/-- The outcome of scanning a lexeme at a position, by positions. -/
def placed (cs : List Char) (pos : ℕ) :
    Except (LexFault × List Char) Scanned → Except (LexFault × ℕ) (Lexeme × ℕ)
  | .ok s => .ok (s.lexeme, pos + s.text.length)
  | .error (fault, f) => .error (fault, bytes cs - bytes f)

lemma drop_append_succ (u r : List Char) (c : Char) : (u ++ c :: r).drop (u.length + 1) = r := by
  rw [← List.drop_drop, List.drop_left]
  rfl

lemma offsetAt_here (u r : List Char) (c : Char) :
    offsetAt (u ++ c :: r) u.length = bytes (u ++ c :: r) - bytes (c :: r) := by
  rw [offsetAt_append, bytes_append, Nat.add_sub_cancel]

lemma number?_eq (u r : List Char) (c : Char) :
    number? (u ++ c :: r) u.length = some (placed (u ++ c :: r) u.length (number c r)) := by
  let body := spanNumber r
  let text := c :: body.1 ++ body.2.takeWhile isIdentPart
  let rest := body.2.dropWhile isIdentPart
  have hsplit : u ++ c :: r = u ++ (text ++ rest) := by
    have hbody : body.1 ++ body.2 = r := spanNumber_text r
    have htail : body.2.takeWhile isIdentPart ++ rest = body.2 := List.takeWhile_append_dropWhile
    simp [text, htail, hbody]
  have hlen : 1 + body.1.length + (body.2.takeWhile isIdentPart).length = text.length := by
    simp [text]
    omega
  have hslice := slice?_offsetAt u text rest
  rw [← hsplit, ← hlen] at hslice
  unfold number? number
  rw [drop_append_succ]
  dsimp only
  rw [hslice, Option.map_some]
  change some (match numberLiteral? text with | some l => _ | none => _) =
    some (placed _ _ (match numberLiteral? text with | some l => _ | none => _))
  cases numberLiteral? text with
  | some l => rw [hlen]; rfl
  | none => rw [offsetAt_here]; rfl

lemma word?_eq (u r : List Char) (c : Char) :
    word? (u ++ c :: r) u.length = some (placed (u ++ c :: r) u.length (word c r)) := by
  let name := c :: r.takeWhile isIdentPart
  have hname : name ++ r.dropWhile isIdentPart = c :: r := by
    simp [name, List.takeWhile_append_dropWhile]
  have hlen : 1 + (r.takeWhile isIdentPart).length = name.length := Nat.add_comm _ _
  have hdrop : (u ++ c :: r).drop (u.length + name.length) = r.dropWhile isIdentPart := by
    rw [← hname, ← List.append_assoc, ← List.length_append, List.drop_left]
  unfold word? word
  rw [drop_append_succ]
  dsimp only
  rw [hlen, hdrop]
  cases hs : steps (r.dropWhile isIdentPart) with
  | error e =>
    obtain ⟨fault, f⟩ := e
    have hf : f <:+ u ++ c :: r := by
      have hr : r.dropWhile isIdentPart <:+ c :: r := ⟨name, hname⟩
      exact ((steps_suffix hs).trans hr).trans (List.suffix_append u _)
    exact congrArg some (congrArg Except.error (Prod.ext rfl (offsetAt_suffix hf)))
  | ok x =>
    obtain ⟨t, v⟩ := x
    have htext : u ++ c :: r = u ++ ((name ++ t) ++ v) := by
      rw [← hname, List.append_assoc, steps_text hs]
    have hslice := slice?_offsetAt u (name ++ t) v
    rw [← htext, List.length_append, ← Nat.add_assoc] at hslice
    dsimp only
    rw [hslice, Option.map_some]
    cases t with
    | nil => simp [placed, name]
    | cons d t =>
      rw [Nat.add_assoc, ← List.length_append]
      rfl

lemma lexeme?_eq (u r : List Char) (c : Char) (b : Bool) :
    lexeme? (u ++ c :: r) u.length b = some (placed (u ++ c :: r) u.length (scanOne b c r)) := by
  have hc : (u ++ c :: r)[u.length]? = some c := by simp
  unfold lexeme? scanOne
  rw [hc, Option.bind_some, drop_append_succ]
  dsimp only
  split
  · exact number?_eq u r c
  · cases symbol? (c :: r) with
    | some s => rfl
    | none =>
      dsimp only
      split
      · cases Quoted.read c r with
        | some q =>
          dsimp only
          rw [Nat.add_comm 1]
          rfl
        | none =>
          dsimp only
          rw [offsetAt_here]
          rfl
      · split
        · exact word?_eq u r c
        · rw [offsetAt_here]
          rfl

/-- Every slice of the scan is there, and the scan by positions gives what the scan gives. -/
theorem tokens?_eq (n : ℕ) (u r : List Char) (b : Bool) (h : r.length < n) :
    tokens? (u ++ r) n u.length b =
      some ((scanFrom (bytes u) b r).map (marks (bytes (u ++ r)))) := by
  induction n generalizing u r b with
  | zero => omega
  | succ n ih =>
    cases r with
    | nil =>
      have hend : (u ++ [])[u.length]? = none := by simp
      rw [tokens?, hend, scanFrom_nil]
      rfl
    | cons c r =>
      have hc : (u ++ c :: r)[u.length]? = some c := by simp
      rw [List.length_cons] at h
      rw [tokens?, hc]
      dsimp only
      by_cases hb : isBlank c = true
      · have hstep : u ++ c :: r = (u ++ [c]) ++ r := by simp
        have hih := ih (u ++ [c]) r b (by omega)
        rw [← hstep, List.length_append, bytes_append u [c]] at hih
        rw [if_pos hb, scanFrom_blank hb]
        exact hih
      · rw [if_neg hb, lexeme?_eq]
        have hb' : isBlank c = false := by simpa using hb
        cases hs : scanOne b c r with
        | error e =>
          obtain ⟨fault, f⟩ := e
          have hle : bytes f ≤ bytes (c :: r) := bytes_suffix (scanOne_suffix hs)
          have hoff : bytes (u ++ c :: r) - bytes f =
              bytes u + (bytes (c :: r) - bytes f) := by
            rw [bytes_append]
            omega
          rw [scanFrom_error hb' hs, ← hoff]
          rfl
        | ok s =>
          have htext := (scanOne_text hs).1
          have hne := List.length_pos_iff.2 (scanOne_text hs).2
          have hlen : s.text.length + s.rest.length = r.length + 1 := by
            rw [← List.length_append, htext, List.length_cons]
          have hih := ih (u ++ s.text) s.rest s.lexeme.endsOperand (by omega)
          rw [List.append_assoc, htext, List.length_append, bytes_append u s.text] at hih
          rw [scanFrom_lexeme hb' hs]
          change (tokens? (u ++ c :: r) n (u.length + s.text.length) s.lexeme.endsOperand).map _ = _
          rw [hih, offsetAt_append]
          cases scanFrom (bytes u + bytes s.text) s.lexeme.endsOperand s.rest <;> rfl

end RecordRules.Positions
