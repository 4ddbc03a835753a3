import Mathlib.Algebra.BigOperators.Group.Finset.Basic
import RecordRules.Proofs.Locality
import RecordRules.Proofs.PathTokens
import RecordRules.Proofs.SideBySide

/-!
Blanks only separate. Whatever blanks are put before the tokens of a text and at its end, the text
scans to the same lexemes, each moved by the bytes that were put before it, and it is parsed to the
same rule or fails with an error of the same code.
-/

namespace RecordRules.Spacing

open Text Token

/-- The text from byte `o` on, with `w p` put before each byte `p` where a character begins and at
the end. -/
def spread (w : ℕ → List Char) (o : ℕ) : List Char → List Char
  | [] => w o
  | c :: cs => w o ++ c :: spread w (o + c.utf8Size) cs

def spaced (w : ℕ → List Char) (s : String) : String := String.ofList (spread w 0 s.toList)

/-- How many bytes are put before the places below `k`. -/
def inserted (w : ℕ → List Char) (k : ℕ) : ℕ := ∑ p ∈ Finset.range k, bytes (w p)

/-- The token at the place where it stands after the insertion. -/
def moved (w : ℕ → List Char) (t : Token) : Token :=
  ⟨t.lexeme, t.offset + inserted w (t.offset + 1)⟩

variable {w : ℕ → List Char} {o k n : ℕ} {b : Bool} {c : Char} {u cs : List Char}
  {ts : List Token} {s : String}

/-! ### Bytes -/

lemma inserted_succ (w : ℕ → List Char) (k : ℕ) :
    inserted w (k + 1) = inserted w k + bytes (w k) :=
  Finset.sum_range_succ _ k

lemma inserted_eq (hok : o ≤ k) (h : ∀ p, o ≤ p → p < k → w p = []) :
    inserted w k = inserted w o := by
  induction k, hok using Nat.le_induction with
  | base => rfl
  | succ k hok ih =>
    rw [inserted_succ, h k hok (Nat.lt_succ_self k), ih fun p hp hk => h p hp (by omega)]
    rfl

/-- Where nothing is put inside, a text stays as it is. -/
lemma spread_append (h : ∀ p, o ≤ p → p < o + bytes u → w p = []) :
    spread w o (u ++ cs) = u ++ spread w (o + bytes u) cs := by
  induction u generalizing o with
  | nil => rfl
  | cons c u ih =>
    have hc := c.utf8Size_pos
    rw [bytes_cons] at h
    have hnil : w o = [] := h o le_rfl (by omega)
    have hrest := ih (o := o + c.utf8Size) fun p hp hlt => h p (by omega) (by omega)
    rw [List.cons_append, spread, hnil, hrest, bytes_cons, Nat.add_assoc]
    rfl

lemma bytes_spread (h : ∀ n, w (o + n) ≠ [] → IsBoundary cs n) :
    inserted w o + bytes (spread w o cs) = bytes cs + inserted w (o + bytes cs + 1) := by
  induction cs generalizing o with
  | nil => rw [spread, bytes_nil, Nat.zero_add, Nat.add_zero, inserted_succ]
  | cons c cs ih =>
    have hc := c.utf8Size_pos
    have hgap : inserted w (o + c.utf8Size) = inserted w (o + 1) := by
      refine inserted_eq (by omega) fun p hp hlt => ?_
      by_contra hne
      obtain ⟨n, rfl⟩ := Nat.exists_eq_add_of_le (Nat.le_of_succ_le hp)
      rcases isBoundary_cons.1 (h n hne) with rfl | ⟨k, rfl, -⟩ <;> omega
    have hrest := ih (o := o + c.utf8Size) fun n hne => by
      rw [Nat.add_assoc] at hne
      rcases isBoundary_cons.1 (h (c.utf8Size + n) hne) with hzero | ⟨k, hk, hbound⟩
      · omega
      · rwa [Nat.add_left_cancel hk]
    rw [hgap, inserted_succ] at hrest
    rw [spread, bytes_append, bytes_cons, bytes_cons, ← Nat.add_assoc o]
    omega

/-! ### The scan -/

lemma scanFrom_blanks (hu : ∀ c ∈ u, isBlank c = true) :
    scanFrom o b (u ++ cs) = scanFrom (o + bytes u) b cs := by
  induction u generalizing o with
  | nil => rfl
  | cons c u ih =>
    rw [List.forall_mem_cons] at hu
    rw [List.cons_append, scanFrom_blank hu.1, ih hu.2, bytes_cons, Nat.add_assoc]

/-- Blanks are put before a text by altering it from the first of them on. -/
lemma altered_spread (hblank : ∀ o, ∀ c ∈ w o, isBlank c = true) (o : ℕ) (cs : List Char) :
    Altered cs (spread w o cs) := by
  induction cs generalizing o with
  | nil => exact .cut [] fun c hc => isInert_of_isBlank (hblank o c (List.mem_of_mem_head? hc))
  | cons c cs ih =>
    rw [spread]
    cases hw : w o with
    | nil => exact .cons c (ih _)
    | cons d v =>
      refine .cut _ fun e he => ?_
      cases he
      exact isInert_of_isBlank (hblank o d (hw ▸ List.mem_cons_self))

/-- Tokens stand at or after the place where their text begins. -/
lemma le_offset (h : scanFrom o b cs = .ok ts) {p : ℕ} (hp : p ∈ ts.map Token.offset) : o ≤ p := by
  obtain ⟨t, ht, rfl⟩ := List.mem_map.1 hp
  obtain ⟨u, -, -, -, -, -, hoff, -⟩ := exists_of_mem_scanFrom h ht
  omega

/-- Before the tokens that are scanned next and the end nothing is put. -/
lemma eq_nil_of_lt {r : List Char} (h : scanFrom k b r = .ok ts) {p : ℕ} (hp : p < k)
    (hplace : w p ≠ [] → p ∈ ts.map Token.offset ∨ p = k + bytes r) : w p = [] := by
  by_contra hne
  rcases hplace hne with hmem | hend
  · have := le_offset h hmem
    omega
  · omega

lemma bytes_text_pos {sc : Scanned} (hs : scanOne b c cs = .ok sc) : 0 < bytes sc.text := by
  cases ht : sc.text with
  | nil => exact absurd ht (scanOne_text hs).2
  | cons d t => exact Nat.lt_of_lt_of_le d.utf8Size_pos (Nat.le_add_right _ _)

/-- A lexeme inside of which nothing is put is scanned again. -/
lemma scanOne_spread (hblank : ∀ o, ∀ c ∈ w o, isBlank c = true) {sc : Scanned}
    (hs : scanOne b c cs = .ok sc) (hinside : ∀ p, o < p → p < o + bytes sc.text → w p = []) :
    scanOne b c (spread w (o + c.utf8Size) cs) =
      .ok { sc with rest := spread w (o + bytes sc.text) sc.rest } := by
  obtain ⟨htext, hne⟩ := scanOne_text hs
  have hagain := scanOne_again hs (altered_spread hblank (o + bytes sc.text) sc.rest)
  rw [← hagain]
  cases ht : sc.text with
  | nil => exact absurd ht hne
  | cons d t =>
    rw [ht, bytes_cons] at hinside
    rw [ht, List.cons_append, List.cons.injEq] at htext
    obtain ⟨rfl, rfl⟩ := htext
    have hpos := d.utf8Size_pos
    rw [spread_append fun p hp hlt => hinside p (by omega) (by omega), List.tail_cons, bytes_cons,
      Nat.add_assoc]

theorem scanFrom_spread (hblank : ∀ o, ∀ c ∈ w o, isBlank c = true)
    (h : scanFrom o b cs = .ok ts)
    (hplace : ∀ p, o ≤ p → w p ≠ [] → p ∈ ts.map Token.offset ∨ p = o + bytes cs) :
    scanFrom (o + inserted w o) b (spread w o cs) = .ok (ts.map (moved w)) := by
  fun_induction scanFrom o b cs generalizing ts with
  | case1 o b =>
    cases h
    have hskip : scanFrom (o + inserted w o) b (w o ++ []) =
        scanFrom (o + inserted w o + bytes (w o)) b [] := scanFrom_blanks (hblank o)
    rw [List.append_nil, scanFrom_nil] at hskip
    exact hskip
  | case2 o b c r hc ih =>
    have hnext (p : ℕ) (hp : o ≤ p) (hne : w p ≠ []) :
        p ∈ ts.map Token.offset ∨ p = o + c.utf8Size + bytes r := by
      rw [Nat.add_assoc]
      exact hplace p hp hne
    have hgap : inserted w (o + c.utf8Size) = inserted w (o + 1) :=
      inserted_eq (by have := c.utf8Size_pos; omega) fun p hp hlt =>
        eq_nil_of_lt h hlt (hnext p (by omega))
    have hrest := ih h fun p hp => hnext p (by omega)
    rw [hgap, inserted_succ] at hrest
    rw [spread, scanFrom_blanks (hblank o), scanFrom_blank hc, ← hrest]
    congr 1
    omega
  | case3 => cases h
  | case4 => cases h
  | case5 o b c r hc s hs hlt us hus ih =>
    cases h
    have htext := (scanOne_text hs).1
    have hnext (p : ℕ) (hp : o < p) (hne : w p ≠ []) :
        p ∈ us.map Token.offset ∨ p = o + bytes s.text + bytes s.rest := by
      rcases hplace p (by omega) hne with hmem | hend
      · rw [List.map_cons, List.mem_cons] at hmem
        exact .inl (hmem.resolve_left (by simp only; omega))
      · rw [← htext, bytes_append] at hend
        exact .inr (by omega)
    have hinside (p : ℕ) (hp : o < p) (hlt : p < o + bytes s.text) : w p = [] :=
      eq_nil_of_lt hus hlt (hnext p hp)
    have hpos : o < o + bytes s.text := Nat.lt_add_of_pos_right (bytes_text_pos hs)
    have hgap : inserted w (o + bytes s.text) = inserted w (o + 1) :=
      inserted_eq hpos fun p hp hlt => hinside p (by omega) hlt
    have hoffset : o + inserted w o + bytes (w o) = o + inserted w (o + 1) := by
      rw [inserted_succ, Nat.add_assoc]
    have hafter : o + inserted w (o + 1) + bytes s.text =
        o + bytes s.text + inserted w (o + bytes s.text) := by
      rw [hgap]
      omega
    have hrest := ih hus fun p hp => hnext p (by omega)
    rw [spread, scanFrom_blanks (hblank o), hoffset,
      scanFrom_lexeme (Bool.not_eq_true _ ▸ hc) (scanOne_spread hblank hs hinside)]
    dsimp only
    rw [hafter, hrest]
    rfl

/-- Tokens begin and the text ends where a character does. -/
lemma isBoundary_of_place (h : Token.scan s = .ok ts)
    (hplace : ∀ o, w o ≠ [] → o ∈ ts.map Token.offset ∨ o = bytes s.toList) {n : ℕ}
    (hn : w n ≠ []) : IsBoundary s.toList n := by
  rcases hplace n hn with hmem | rfl
  · obtain ⟨t, ht, rfl⟩ := List.mem_map.1 hmem
    obtain ⟨u, c, v, -, -, htext, hoff, -⟩ := exists_of_mem_scanFrom (scanFrom_of_scan h) ht
    exact ⟨u, c :: v, htext, by omega⟩
  · exact ⟨s.toList, [], (List.append_nil _).symm, rfl⟩

/-! ### Parsing -/

/-- Two runs of the parser with one limit, wherever their tokens stand. -/
def looseRuns (limit : Option ℕ) (stop stop' : ℕ) : Runs where
  place := fun _ _ => True
  place_zero := trivial
  place_add := fun _ _ _ _ => trivial
  stop := stop
  stop' := stop'
  place_stop := trivial
  limit := limit
  limit' := limit
  limits := .inl rfl

lemma alike_moved {limit : Option ℕ} {stop stop' : ℕ} (ts : List Token) :
    List.Forall₂ (looseRuns limit stop stop').Alike ts (ts.map (moved w)) := by
  induction ts with
  | nil => exact .nil
  | cons t ts ih => exact .cons (.mk t.lexeme trivial) ih

/-- The parser sees what the tokens say and not where they stand. -/
lemma rule_moved (limit : Option ℕ) (stop stop' : ℕ) (ts : List Token) :
    (Parse.rule stop' limit (ts.map (moved w))).mapError (fun f => f.1.code) =
      (Parse.rule stop limit ts).mapError fun f => f.1.code := by
  have hruns : (looseRuns limit stop stop').Verdicts ts (Parse.rule stop limit ts)
      (Parse.rule stop' limit (ts.map (moved w))) := Runs.verdicts (alike_moved ts)
  generalize Parse.rule stop limit ts = x at hruns ⊢
  generalize Parse.rule stop' limit (ts.map (moved w)) = y at hruns ⊢
  cases hruns with
  | accepted => rfl
  | fault => rfl
  | beyond hnone hsome => cases hnone.symm.trans hsome

lemma code_parse {limit : Option ℕ} (h : Token.scan s = .ok ts) :
    (Rule.parse limit s).mapError RuleError.code =
      (Parse.rule (bytes s.toList) limit ts).mapError fun f => f.1.code := by
  rw [Rule.parse_of_scan h]
  cases Parse.rule (bytes s.toList) limit ts <;> rfl

lemma scan_tight : Token.scan "x-1<=-2" = .ok [⟨.path "x", 0⟩, ⟨.arithmetic .sub, 1⟩,
    ⟨.literal (.int 1), 2⟩, ⟨.relation .le, 3⟩, ⟨.literal (.int (-2)), 5⟩] := by
  have hword : scanOne false 'x' ['-', '1', '<', '=', '-', '2'] =
      .ok ⟨.path "x", ['x'], ['-', '1', '<', '=', '-', '2']⟩ := by
    have hsteps : steps ['-', '1', '<', '=', '-', '2'] = .ok ([], ['-', '1', '<', '=', '-', '2']) :=
      steps_stop (by decide) (by decide)
    have hrest : ['-', '1', '<', '=', '-', '2'].dropWhile isIdentPart =
        ['-', '1', '<', '=', '-', '2'] := rfl
    rw [scanOne_word (by decide)]
    unfold word
    dsimp only
    rw [hrest, hsteps]
    rfl
  have hminus : scanOne true '-' ['1', '<', '=', '-', '2'] =
      .ok ⟨.arithmetic .sub, ['-'], ['1', '<', '=', '-', '2']⟩ := rfl
  have hone : scanOne false '1' ['<', '=', '-', '2'] =
      .ok ⟨.literal (.int 1), ['1'], ['<', '=', '-', '2']⟩ := rfl
  have hle : scanOne true '<' ['=', '-', '2'] = .ok ⟨.relation .le, ['<', '='], ['-', '2']⟩ := rfl
  have htwo : scanOne false '-' ['2'] = .ok ⟨.literal (.int (-2)), ['-', '2'], []⟩ := rfl
  have htext : "x-1<=-2".toList = ['x', '-', '1', '<', '=', '-', '2'] := rfl
  rw [Token.scan, htext, scanFrom_lexeme (by decide) hword]
  dsimp only [Lexeme.endsOperand]
  rw [scanFrom_lexeme (by decide) hminus]
  dsimp only [Lexeme.endsOperand]
  rw [scanFrom_lexeme (by decide) hone]
  dsimp only [Lexeme.endsOperand]
  rw [scanFrom_lexeme (by decide) hle]
  dsimp only [Lexeme.endsOperand]
  rw [scanFrom_lexeme (by decide) htwo, scanFrom_nil]
  rfl

/-- **Blanks only separate.** If a text scans, and blanks are put before any of its tokens and at
its end, then it scans to the same lexemes, each moved by the bytes put before it, and so is the
end of the text; and it is parsed to the same rule, or fails with an error of the same code. -/
theorem scan_spaced (hs : Token.scan s = .ok ts) (hblank : ∀ o, ∀ c ∈ w o, isBlank c = true)
    (hplace : ∀ o, w o ≠ [] → o ∈ ts.map Token.offset ∨ o = bytes s.toList) :
    Token.scan (spaced w s) = .ok (ts.map (moved w)) ∧
      bytes (spaced w s).toList = bytes s.toList + inserted w (bytes s.toList + 1) ∧
      ∀ limit, (Rule.parse limit (spaced w s)).mapError RuleError.code =
        (Rule.parse limit s).mapError RuleError.code := by
  have htext : (spaced w s).toList = spread w 0 s.toList := String.toList_ofList
  have hzero : inserted w 0 = 0 := Finset.sum_range_zero _
  have hscan : Token.scan (spaced w s) = .ok (ts.map (moved w)) := by
    have hfrom := scanFrom_spread hblank (scanFrom_of_scan hs) fun p _ hp => by
      rw [Nat.zero_add]
      exact hplace p hp
    rw [hzero] at hfrom
    rw [Token.scan, htext, hfrom]
  have hboundary (n : ℕ) (hn : w (0 + n) ≠ []) : IsBoundary s.toList n := by
    rw [Nat.zero_add] at hn
    exact isBoundary_of_place hs hplace hn
  have hbytes := bytes_spread hboundary
  rw [hzero, Nat.zero_add, Nat.zero_add, ← htext] at hbytes
  refine ⟨hscan, hbytes, fun limit => ?_⟩
  rw [code_parse hs, code_parse hscan]
  exact rule_moved limit _ _ ts

/-- A wide blank before the minus, which stays an operator, two blanks before the number with its
sign, and the end of a line. -/
theorem scan_spaced_signs :
    let w : ℕ → List Char := fun o =>
      if o = 1 then ['\u3000'] else if o = 5 then [' ', ' '] else if o = 7 then ['\n'] else []
    let ts : List Token := [⟨.path "x", 0⟩, ⟨.arithmetic .sub, 1⟩, ⟨.literal (.int 1), 2⟩,
      ⟨.relation .le, 3⟩, ⟨.literal (.int (-2)), 5⟩]
    Token.scan "x-1<=-2" = .ok ts ∧ (∀ o, ∀ c ∈ w o, isBlank c = true) ∧
      (∀ o, w o ≠ [] → o ∈ ts.map Token.offset ∨ o = bytes "x-1<=-2".toList) ∧
      Token.scan "x\u3000-1<=  -2\n" = .ok [⟨.path "x", 0⟩, ⟨.arithmetic .sub, 4⟩,
        ⟨.literal (.int 1), 5⟩, ⟨.relation .le, 6⟩, ⟨.literal (.int (-2)), 10⟩] ∧
      bytes "x\u3000-1<=  -2\n".toList = 13 ∧
      ∀ limit, (Rule.parse limit "x\u3000-1<=  -2\n").mapError RuleError.code =
        (Rule.parse limit "x-1<=-2").mapError RuleError.code := by
  intro w ts
  have hblank : ∀ o, ∀ c ∈ w o, isBlank c = true := by
    intro o c hc
    have hc' : c = '\u3000' ∨ c = ' ' ∨ c = '\n' := by
      simp only [w] at hc
      split_ifs at hc <;> simp_all
    rcases hc' with rfl | rfl | rfl <;> rfl
  have hplace : ∀ o, w o ≠ [] → o ∈ ts.map Token.offset ∨ o = bytes "x-1<=-2".toList := by
    intro o ho
    have ho' : o = 1 ∨ o = 5 ∨ o = 7 := by
      by_contra hne
      simp_all [w]
    rcases ho' with rfl | rfl | rfl <;> decide
  have hspaced : spaced w "x-1<=-2" = "x\u3000-1<=  -2\n" := rfl
  have hmoved : ts.map (moved w) = [⟨.path "x", 0⟩, ⟨.arithmetic .sub, 4⟩,
      ⟨.literal (.int 1), 5⟩, ⟨.relation .le, 6⟩, ⟨.literal (.int (-2)), 10⟩] := rfl
  obtain ⟨hscan, hbytes, hparse⟩ := scan_spaced scan_tight hblank hplace
  rw [hspaced] at hscan hbytes hparse
  exact ⟨scan_tight, hblank, hplace, hscan.trans (congrArg _ hmoved), hbytes, hparse⟩

end RecordRules.Spacing
