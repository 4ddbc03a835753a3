import RecordRules.Proofs.Positions.Scan

/-!
The reading of paths by positions. Names and numbers are ranges of the characters, and the
character after a backslash is looked up. They are always there, and the reading by positions
is the reading.
-/

namespace RecordRules.Positions

open Text Segment

/-! ### The readers -/

/-- The identifier at a position, and the position after it. -/
def readName? (cs : List Char) (pos : ℕ) : Option (Except (PathFault × ℕ) (String × ℕ)) :=
  match cs[pos]? with
  | none => some (.error (.invalid, bytes cs))
  | some c =>
    if isIdentStart c then
      let stop := pos + (1 + ((cs.drop (pos + 1)).takeWhile isIdentPart).length)
      (range? cs pos stop).map fun w => .ok (String.ofList w, stop)
    else some (.error (.invalid, offsetAt cs pos))

/-- What a quoted text from a position on stands for, and the position after its closing quote,
if it has one; with at most so many steps. -/
def quoted? (cs : List Char) (quote : Char) : ℕ → ℕ → Option (Option (List Char × ℕ))
  | 0, _ => none
  | n + 1, pos =>
    match cs[pos]? with
    | none => some none
    | some c =>
      if c = quote then some (some ([], pos + 1))
      else if c = '\\' ∧ cs[pos + 1]?.any isEscapable then
        cs[pos + 1]?.bind fun e =>
          (quoted? cs quote n (pos + 2)).map (Option.map fun x => (e :: x.1, x.2))
      else (quoted? cs quote n (pos + 1)).map (Option.map fun x => (c :: x.1, x.2))

def closeIndexAt (cs : List Char) (key : Key) (pos : ℕ) :
    Except (PathFault × ℕ) (Key × ℕ) :=
  let stop := pos + ((cs.drop pos).takeWhile isBlank).length
  match cs[stop]? with
  | none => .error (.invalid, bytes cs)
  | some c => if c = ']' then .ok (key, stop + 1) else .error (.invalid, offsetAt cs stop)

/-- The index after an opening bracket, and the position after the closing one. -/
def readIndex? (cs : List Char) (pos : ℕ) : Option (Except (PathFault × ℕ) (Key × ℕ)) :=
  let start := pos + ((cs.drop pos).takeWhile isBlank).length
  match cs[start]? with
  | none => some (.error (.invalid, bytes cs))
  | some c =>
    if isQuote c then
      (quoted? cs c (cs.length + 1) (start + 1)).map fun
        | some (w, stop) => closeIndexAt cs (.str (String.ofList w)) stop
        | none => .error (.openQuote, offsetAt cs start)
    else if c.isDigit || c == '-' then
      let stop := start + (1 + ((cs.drop (start + 1)).takeWhile (·.isDigit)).length)
      (range? cs start stop).map fun w =>
        match Number.readInt64? w with
        | some i => closeIndexAt cs (.int i) stop
        | none => .error (.invalid, offsetAt cs start)
    else if isIdentStart c then
      let stop := start + (1 + ((cs.drop (start + 1)).takeWhile isIdentPart).length)
      (range? cs start stop).map fun w => closeIndexAt cs (.str (String.ofList w)) stop
    else some (.error (.invalid, offsetAt cs start))

/-- The steps of a path from a position on, at most so many. -/
def readSteps? (cs : List Char) : ℕ → ℕ → Option (Except (PathFault × ℕ) (List Segment))
  | 0, _ => none
  | n + 1, pos =>
    match cs[pos]? with
    | none => some (.ok [])
    | some c =>
      if c = '.' then
        match readName? cs (pos + 1) with
        | none => none
        | some (.error e) => some (.error e)
        | some (.ok (name, stop)) => (readSteps? cs n stop).map (Except.map (.attr name :: ·))
      else if c = '[' then
        match readIndex? cs (pos + 1) with
        | none => none
        | some (.error e) => some (.error e)
        | some (.ok (key, stop)) => (readSteps? cs n stop).map (Except.map (.index key :: ·))
      else some (.error (.invalid, offsetAt cs pos))

def readAll? (cs : List Char) : Option (Except (PathFault × ℕ) (List Segment)) :=
  match readName? cs 0 with
  | none => none
  | some (.error e) => some (.error e)
  | some (.ok (name, stop)) =>
    (readSteps? cs (cs.length + 1) stop).map (Except.map (.attr name :: ·))

/-! ### Where the reading goes on and where it stops -/

variable {α : Type} {cs u r f : List Char} {c quote : Char} {key : Key} {fault : PathFault}

/-- Where a fault lies that was found with this much of the text left. -/
def faultAt (cs : List Char) (e : PathFault × List Char) : PathFault × ℕ :=
  (e.1, bytes cs - bytes e.2)

/-- The outcome of a reader with positions for the texts that it gives back. -/
def located (cs : List Char) :
    Except (PathFault × List Char) (α × List Char) → Except (PathFault × ℕ) (α × ℕ)
  | .ok (a, r) => .ok (a, cs.length - r.length)
  | .error e => .error (faultAt cs e)

lemma length_sub (u w v : List Char) : (u ++ (w ++ v)).length - v.length = u.length + w.length := by
  rw [← List.append_assoc, List.length_append, Nat.add_sub_cancel, List.length_append]

lemma readName?_eq (u r : List Char) :
    readName? (u ++ r) u.length = some (located (u ++ r) (readName r)) := by
  cases r with
  | nil =>
    have hend : (u ++ [])[u.length]? = none := by simp
    rw [readName?, hend]
    rfl
  | cons c r =>
    have hc : (u ++ c :: r)[u.length]? = some c := by simp
    unfold readName? readName
    rw [hc, drop_append_succ]
    dsimp only
    split
    · have hsplit : u ++ c :: r =
          u ++ ((c :: r.takeWhile isIdentPart) ++ r.dropWhile isIdentPart) := by
        simp [List.takeWhile_append_dropWhile]
      have hrange := range?_append u (c :: r.takeWhile isIdentPart) (r.dropWhile isIdentPart)
      have hstop := length_sub u (c :: r.takeWhile isIdentPart) (r.dropWhile isIdentPart)
      rw [← hsplit, List.length_cons, Nat.add_comm _ 1] at hrange hstop
      rw [hrange, Option.map_some, ← hstop]
      rfl
    · rw [offsetAt_here]
      rfl

lemma read_plain (hq : c ≠ quote) (he : ¬(c = '\\' ∧ r.head?.any isEscapable = true)) :
    Quoted.read quote (c :: r) = (Quoted.read quote r).map (·.push c [c]) := by
  by_cases hc : c = '\\'
  · subst hc
    cases r with
    | nil =>
      rw [Quoted.read.eq_def]
      exact if_neg hq
    | cons e r => exact Quoted.read_backslash hq fun h => he ⟨rfl, h⟩
  · exact Quoted.read_other hq hc

/-- The character after a backslash is there when it is looked up. -/
lemma quoted?_eq (quote : Char) (n : ℕ) (u r : List Char) (h : r.length < n) :
    quoted? (u ++ r) quote n u.length =
      some ((Quoted.read quote r).map fun q => (q.value, u.length + q.text.length)) := by
  induction n generalizing u r with
  | zero => omega
  | succ n ih =>
    cases r with
    | nil =>
      have hend : (u ++ [])[u.length]? = none := by simp
      rw [quoted?, hend]
      rfl
    | cons c r =>
      have hc : (u ++ c :: r)[u.length]? = some c := by simp
      have hnext : (u ++ c :: r)[u.length + 1]? = r.head? := by
        rw [List.getElem?_append_right (Nat.le_add_right _ 1), Nat.add_sub_cancel_left,
          List.getElem?_cons_succ, List.head?_eq_getElem?]
      rw [List.length_cons] at h
      rw [quoted?, hc, hnext]
      dsimp only
      by_cases hq : c = quote
      · rw [if_pos hq, hq, Quoted.read_quote]
        rfl
      rw [if_neg hq]
      by_cases he : c = '\\' ∧ r.head?.any isEscapable = true
      · obtain ⟨rfl, he⟩ := he
        cases r with
        | nil => cases he
        | cons e r =>
          have hstep : u ++ '\\' :: e :: r = (u ++ ['\\', e]) ++ r := by simp
          have hih := ih (u ++ ['\\', e]) r (by simp only [List.length_cons] at h; omega)
          have hlen : (u ++ ['\\', e]).length = u.length + 2 := List.length_append
          have hlook : (e :: r).head? = some e := rfl
          rw [← hstep, hlen] at hih
          rw [if_pos ⟨rfl, he⟩, Quoted.read_escape hq he, hlook, Option.bind_some, hih]
          cases Quoted.read quote r with
          | none => rfl
          | some q =>
            have hsum : u.length + 2 + q.text.length = u.length + (q.text.length + 2) := by omega
            simp [Quoted.push, hsum]
      · have hstep : u ++ c :: r = (u ++ [c]) ++ r := by simp
        have hih := ih (u ++ [c]) r (by omega)
        have hlen : (u ++ [c]).length = u.length + 1 := List.length_append
        rw [← hstep, hlen] at hih
        rw [if_neg he, read_plain hq he, hih]
        cases Quoted.read quote r with
        | none => rfl
        | some q =>
          have hsum : u.length + 1 + q.text.length = u.length + (q.text.length + 1) := by omega
          simp [Quoted.push, hsum]

/-- A text up to the blanks at its front, and what follows these. -/
lemma skip_blanks (u r : List Char) :
    u ++ r = (u ++ r.takeWhile isBlank) ++ r.dropWhile isBlank ∧
      u.length + (((u ++ r).drop u.length).takeWhile isBlank).length =
        (u ++ r.takeWhile isBlank).length := by
  rw [List.append_assoc, List.takeWhile_append_dropWhile, List.drop_left, List.length_append]
  exact ⟨rfl, rfl⟩

lemma closeIndexAt_eq (u r : List Char) (key : Key) :
    closeIndexAt (u ++ r) key u.length = located (u ++ r) (closeIndex key r) := by
  obtain ⟨hsplit, hlen⟩ := skip_blanks u r
  unfold closeIndexAt closeIndex skipBlanks
  dsimp only
  rw [hlen]
  generalize u ++ r.takeWhile isBlank = w at hsplit
  rw [hsplit]
  cases r.dropWhile isBlank with
  | nil =>
    have hend : (w ++ [])[w.length]? = none := by simp
    rw [hend]
    rfl
  | cons c v =>
    have hc : (w ++ c :: v)[w.length]? = some c := by simp
    rw [hc]
    dsimp only
    split
    · have hstop := length_sub w [c] v
      exact congrArg Except.ok (Prod.ext rfl hstop.symm)
    · rw [offsetAt_here]
      rfl

/-- A key that is a range of the characters, and what closes the index after it. -/
lemma key_range (w v : List Char) (c : Char) (p : Char → Bool) :
    range? (w ++ c :: v) w.length (w.length + (1 + (v.takeWhile p).length)) =
        some (c :: v.takeWhile p) ∧
      ∀ key, closeIndexAt (w ++ c :: v) key (w.length + (1 + (v.takeWhile p).length)) =
        located (w ++ c :: v) (closeIndex key (v.dropWhile p)) := by
  let word := c :: v.takeWhile p
  have hsplit : w ++ c :: v = w ++ (word ++ v.dropWhile p) := by
    simp [word, List.takeWhile_append_dropWhile]
  have hlen : 1 + (v.takeWhile p).length = word.length := Nat.add_comm _ _
  rw [hlen, hsplit]
  refine ⟨range?_append w word (v.dropWhile p), fun key => ?_⟩
  rw [← List.append_assoc, ← List.length_append]
  exact closeIndexAt_eq (w ++ word) (v.dropWhile p) key

/-- Every range of an index is there. -/
lemma readIndex?_eq (u r : List Char) :
    readIndex? (u ++ r) u.length = some (located (u ++ r) (readIndex r)) := by
  obtain ⟨hsplit, hlen⟩ := skip_blanks u r
  unfold readIndex? readIndex skipBlanks
  dsimp only
  rw [hlen]
  generalize u ++ r.takeWhile isBlank = w at hsplit
  rw [hsplit]
  cases r.dropWhile isBlank with
  | nil =>
    have hend : (w ++ [])[w.length]? = none := by simp
    rw [hend]
    rfl
  | cons c v =>
    have hc : (w ++ c :: v)[w.length]? = some c := by simp
    rw [hc, drop_append_succ]
    dsimp only
    split
    · have hstep : w ++ c :: v = (w ++ [c]) ++ v := by simp
      have hlast : (w ++ [c]).length = w.length + 1 := List.length_append
      have hquoted := quoted?_eq c ((w ++ c :: v).length + 1) (w ++ [c]) v
        (by simp only [List.length_append, List.length_cons]; omega)
      rw [← hstep, hlast] at hquoted
      rw [hquoted]
      cases hq : Quoted.read c v with
      | none =>
        rw [offsetAt_here]
        rfl
      | some q =>
        have hclose := closeIndexAt_eq ((w ++ [c]) ++ q.text) q.rest (.str (String.ofList q.value))
        rw [List.append_assoc, (Quoted.read_text hq).1, ← hstep, List.length_append,
          hlast] at hclose
        exact congrArg some hclose
    · split
      · obtain ⟨hrange, hclose⟩ := key_range w v c (·.isDigit)
        rw [hrange, Option.map_some]
        cases Number.readInt64? (c :: v.takeWhile (·.isDigit)) with
        | some i => exact congrArg some (hclose _)
        | none =>
          dsimp only
          rw [offsetAt_here]
          rfl
      · split
        · obtain ⟨hrange, hclose⟩ := key_range w v c isIdentPart
          rw [hrange, Option.map_some]
          exact congrArg some (hclose _)
        · rw [offsetAt_here]
          rfl

/-- Every lookup and range of the steps is there. -/
lemma readSteps?_eq (n : ℕ) (u r : List Char) (h : r.length < n) :
    readSteps? (u ++ r) n u.length = some ((readSteps r).mapError (faultAt (u ++ r))) := by
  induction n generalizing u r with
  | zero => omega
  | succ n ih =>
    cases r with
    | nil =>
      have hend : (u ++ [])[u.length]? = none := by simp
      have hnil : readSteps [] = .ok [] := by rw [readSteps.eq_def]
      rw [readSteps?, hend, hnil]
      rfl
    | cons c r =>
      have hc : (u ++ c :: r)[u.length]? = some c := by simp
      have hstep : u ++ c :: r = (u ++ [c]) ++ r := by simp
      have hlen : (u ++ [c]).length = u.length + 1 := List.length_append
      -- what is read after a step that leaves `v`
      have rest {w v : List Char} (hr : r = w ++ v) :
          readSteps? (u ++ c :: r) n ((u ++ c :: r).length - v.length) =
            some ((readSteps v).mapError (faultAt (u ++ c :: r))) := by
        have hih := ih (u ++ c :: w) v (by
          rw [hr, List.length_cons, List.length_append] at h
          omega)
        rw [hr, ← List.cons_append, length_sub, ← List.length_append, ← List.append_assoc]
        exact hih
      rw [readSteps?, hc]
      dsimp only
      by_cases hdot : c = '.'
      · subst hdot
        have hname := readName?_eq (u ++ ['.']) r
        rw [← hstep, hlen] at hname
        rw [if_pos rfl, hname]
        cases hn : readName r with
        | error e =>
          rw [Token.readSteps_point_error hn]
          rfl
        | ok x =>
          obtain ⟨name, v⟩ := x
          obtain ⟨d, w, rfl, -, rfl⟩ := Token.exists_of_readName hn
          have hsplit : d :: w = (d :: w.takeWhile isIdentPart) ++ w.dropWhile isIdentPart := by
            simp [List.takeWhile_append_dropWhile]
          dsimp only [located]
          rw [rest hsplit, Token.readSteps_point hn]
          cases readSteps (w.dropWhile isIdentPart) <;> rfl
      rw [if_neg hdot]
      by_cases hopen : c = '['
      · subst hopen
        have hindex := readIndex?_eq (u ++ ['[']) r
        rw [← hstep, hlen] at hindex
        rw [if_pos rfl, hindex]
        cases hn : readIndex r with
        | error e =>
          rw [Token.readSteps_bracket_error hn]
          rfl
        | ok x =>
          obtain ⟨key, v⟩ := x
          obtain ⟨t, rfl, -⟩ := Token.exists_of_readIndex hn
          have hsplit : t ++ ']' :: v = (t ++ [']']) ++ v := by simp
          dsimp only [located]
          rw [rest hsplit, Token.readSteps_bracket hn]
          cases readSteps v <;> rfl
      · rw [if_neg hopen, offsetAt_here, readSteps.eq_def]
        dsimp only
        rw [if_neg hdot, if_neg hopen]
        rfl

/-- The reading by positions is the reading. -/
theorem readAll?_eq (cs : List Char) :
    readAll? cs = some ((readAll cs).mapError (faultAt cs)) := by
  have hname : readName? cs 0 = some (located cs (readName cs)) := readName?_eq [] cs
  unfold readAll?
  rw [hname]
  cases hn : readName cs with
  | error e =>
    unfold readAll
    rw [hn]
    rfl
  | ok x =>
    obtain ⟨name, v⟩ := x
    obtain ⟨d, w, rfl, -, rfl⟩ := Token.exists_of_readName hn
    have hlen := length_sub [] (d :: w.takeWhile isIdentPart) (w.dropWhile isIdentPart)
    have hsplit : d :: w = (d :: w.takeWhile isIdentPart) ++ w.dropWhile isIdentPart := by
      simp [List.takeWhile_append_dropWhile]
    have hle := (List.dropWhile_sublist isIdentPart (l := w)).length_le
    have hsteps := readSteps?_eq ((d :: w).length + 1) (d :: w.takeWhile isIdentPart)
      (w.dropWhile isIdentPart) (by rw [List.length_cons]; omega)
    rw [List.nil_append, ← hsplit] at hlen
    rw [← hsplit] at hsteps
    dsimp only [located]
    rw [hlen, List.length_nil, Nat.zero_add, hsteps, Token.readAll_eq hn]
    cases readSteps (w.dropWhile isIdentPart) <;> rfl

lemma readAll_of_readAll? {segments : List Segment} (h : readAll? cs = some (.ok segments)) :
    readAll cs = .ok segments := by
  rw [readAll?_eq] at h
  cases hr : readAll cs with
  | error e =>
    rw [hr] at h
    cases h
  | ok ss =>
    rw [hr] at h
    cases h
    rfl

/-- The path that a text spells, by positions. -/
def path? (text : String) : Option (Except (PathFault × ℕ) Path) :=
  match h : readAll? text.toList with
  | none => none
  | some (.error e) => some (.error e)
  | some (.ok segments) => some (.ok ⟨text, segments, readAll_of_readAll? h⟩)

theorem path?_eq (text : String) : path? text = some (Path.read text) := by
  have hall := readAll?_eq text.toList
  unfold path? Path.read
  split
  · next h => rw [h] at hall; cases hall
  · next e h =>
    rw [h] at hall
    split
    · next hr => rw [hr] at hall; cases hall
    · next hr => rw [hr] at hall; cases hall; rfl
  · next segments h =>
    split
    · next hr =>
      rw [readAll_of_readAll? h] at hr
      cases hr
      rfl
    · next hr => rw [readAll_of_readAll? h] at hr; cases hr

/-! ### The place of a fault -/

lemma readName_suffix (h : readName cs = .error (fault, f)) : f <:+ cs := by
  unfold readName at h
  split at h
  · cases h
    exact List.suffix_refl _
  · split at h
    · cases h
    · cases h
      exact List.suffix_refl _

lemma closeIndex_suffix (h : closeIndex key cs = .error (fault, f)) : f <:+ cs := by
  unfold closeIndex skipBlanks at h
  have hblank : cs.dropWhile isBlank <:+ cs := List.dropWhile_suffix _
  split at h
  · cases h
    exact List.nil_suffix
  · next hs =>
    rw [hs] at hblank
    split at h
    · cases h
    · cases h
      exact hblank

lemma readIndex_suffix (h : readIndex cs = .error (fault, f)) : f <:+ cs := by
  unfold readIndex skipBlanks at h
  have hblank : cs.dropWhile isBlank <:+ cs := List.dropWhile_suffix _
  split at h
  · cases h
    exact List.nil_suffix
  next c v hs =>
  rw [hs] at hblank
  have hv : v <:+ cs := (List.suffix_cons c v).trans hblank
  split at h
  · split at h
    · next q hq =>
      have hrest : q.rest <:+ v := ⟨q.text, (Quoted.read_text hq).1⟩
      exact ((closeIndex_suffix h).trans hrest).trans hv
    · cases h
      exact hblank
  · split at h
    · split at h
      · exact ((closeIndex_suffix h).trans (List.dropWhile_suffix _)).trans hv
      · cases h
        exact hblank
    · split at h
      · exact ((closeIndex_suffix h).trans (List.dropWhile_suffix _)).trans hv
      · cases h
        exact hblank

lemma readSteps_suffix (h : readSteps cs = .error (fault, f)) : f <:+ cs := by
  fun_induction readSteps cs with
  | case1 => cases h
  | case2 r e he =>
    cases h
    exact (readName_suffix he).trans (List.suffix_cons '.' r)
  | case3 r n v hn hlt e he ih =>
    cases h
    obtain ⟨d, w, rfl, -, rfl⟩ := Token.exists_of_readName hn
    have hw : w.dropWhile isIdentPart <:+ d :: w :=
      (List.dropWhile_suffix _).trans (List.suffix_cons d w)
    exact ((ih he).trans hw).trans (List.suffix_cons '.' _)
  | case4 => cases h
  | case5 r e he hne =>
    cases h
    exact (readIndex_suffix he).trans (List.suffix_cons '[' r)
  | case6 r k v hk hlt e he hne ih =>
    cases h
    obtain ⟨t, rfl, -⟩ := Token.exists_of_readIndex hk
    have hv : v <:+ t ++ ']' :: v := (List.suffix_cons ']' v).trans (List.suffix_append t _)
    exact ((ih he).trans hv).trans (List.suffix_cons '[' _)
  | case7 => cases h
  | case8 c r hdot hopen =>
    cases h
    exact List.suffix_refl _

/-- The place that a fault of a path gives is a rest of its text. -/
theorem readAll_suffix (h : readAll cs = .error (fault, f)) : f <:+ cs := by
  unfold readAll at h
  split at h
  · next e he =>
    cases h
    exact readName_suffix he
  · next n r hn =>
    obtain ⟨d, w, rfl, -, rfl⟩ := Token.exists_of_readName hn
    split at h
    · next e he =>
      cases h
      exact ((readSteps_suffix he).trans (List.dropWhile_suffix _)).trans (List.suffix_cons d w)
    · cases h

end RecordRules.Positions
