import Mathlib.Order.Bounds.Basic
import RecordRules.Error
import RecordRules.Proofs.Positions.Slice

/-!
The excerpt beside an error. Its bounds go to boundaries of the text byte by byte, the first one
down and the second one up. So the first one is the last boundary that is not beyond where it starts
from, and the second one the first boundary that is not before: neither goes further than to the end
of the character that it falls into, and they never cross, whatever byte the excerpt is taken
around.
-/

namespace RecordRules.Positions

open Text

/-- The sum of two numbers, unless it is beyond the greatest one. -/
def add? (max a b : ℕ) : Option ℕ := if a + b ≤ max then some (a + b) else none

/-- The first boundary on the way down from a byte. -/
def lower (cs : List Char) : ℕ → ℕ
  | 0 => 0
  | n + 1 => if (dropBytes? cs (n + 1)).isSome then n + 1 else lower cs n

/-- The first boundary on the way up from a byte. -/
def raise (cs : List Char) (n : ℕ) : ℕ :=
  if n < bytes cs ∧ ¬(dropBytes? cs n).isSome then raise cs (n + 1) else n
termination_by bytes cs - n

/-- The bounds of the excerpt around a byte, where numbers go up to a greatest one. -/
def window? (max : ℕ) (cs : List Char) (offset : ℕ) : Option Window :=
  (add? max offset Window.radius).map fun stop =>
    ⟨lower cs (offset - Window.radius), raise cs (min stop (bytes cs))⟩

/-- The text near a byte. -/
def excerpt? (cs : List Char) (offset : ℕ) : Option (List Char) :=
  slice? cs (Window.around cs offset).start (Window.around cs offset).stop

variable {cs u v u' v' : List Char} {n offset max : ℕ}

/-! ### Boundaries -/

/-- What follows so many bytes is there where a boundary lies. -/
lemma isSome_dropBytes? : (dropBytes? cs n).isSome = true ↔ IsBoundary cs n := by
  constructor
  · intro h
    induction cs generalizing n with
    | nil =>
      rw [dropBytes?] at h
      split at h
      · next hn => exact hn ▸ isBoundary_zero []
      · cases h
    | cons c cs ih =>
      rw [isBoundary_cons]
      rw [dropBytes?, sub?] at h
      split at h
      · next hn => exact .inl hn
      · split at h
        · next hle => exact .inr ⟨n - c.utf8Size, by omega, ih h⟩
        · cases h
  · rintro ⟨u, v, rfl, rfl⟩
    rw [dropBytes?_append]
    rfl

/-- A byte of a text lies at a boundary or inside a character, which has no more than four. -/
lemma isBoundary_or_inside (h : n ≤ bytes cs) : IsBoundary cs n ∨
    ∃ m k, IsBoundary cs m ∧ IsBoundary cs (m + k) ∧ m < n ∧ n < m + k ∧ k ≤ 4 := by
  induction cs generalizing n with
  | nil =>
    obtain rfl := Nat.le_zero.1 h
    exact .inl (isBoundary_zero [])
  | cons c cs ih =>
    by_cases hzero : n = 0
    · exact .inl (hzero ▸ isBoundary_zero _)
    by_cases hlt : n < c.utf8Size
    · have hend : IsBoundary (c :: cs) (0 + c.utf8Size) :=
        isBoundary_cons.2 (.inr ⟨0, Nat.zero_add _, isBoundary_zero cs⟩)
      exact .inr ⟨0, c.utf8Size, isBoundary_zero _, hend, by omega, by omega, c.utf8Size_le_four⟩
    · have after {k : ℕ} (hk : IsBoundary cs k) : IsBoundary (c :: cs) (c.utf8Size + k) :=
        isBoundary_cons.2 (.inr ⟨k, rfl, hk⟩)
      obtain ⟨j, rfl⟩ := Nat.exists_eq_add_of_le (Nat.not_lt.1 hlt)
      rw [bytes_cons] at h
      rcases ih (Nat.le_of_add_le_add_left h) with hj | ⟨m, k, hm, hk, hlow, hhigh, hsize⟩
      · exact .inl (after hj)
      · refine .inr ⟨c.utf8Size + m, k, after hm, ?_, by omega, by omega, hsize⟩
        rw [Nat.add_assoc]
        exact after hk

/-! ### The bounds -/

lemma isGreatest_floorBoundary (cs : List Char) (n : ℕ) :
    IsGreatest {m | IsBoundary cs m ∧ m ≤ n} (floorBoundary cs n) := by
  fun_induction floorBoundary cs n with
  | case1 n => exact ⟨⟨isBoundary_zero [], Nat.zero_le n⟩, fun m hm => le_of_isBoundary hm.1⟩
  | case2 c cs n hn =>
    refine ⟨⟨isBoundary_zero _, Nat.zero_le n⟩, fun m ⟨hm, hle⟩ => ?_⟩
    rcases isBoundary_cons.1 hm with rfl | ⟨k, rfl, -⟩
    · exact le_rfl
    · omega
  | case3 c cs n hn ih =>
    obtain ⟨⟨hfloor, hle⟩, hgreatest⟩ := ih
    refine ⟨⟨isBoundary_cons.2 (.inr ⟨_, rfl, hfloor⟩), by omega⟩, fun m ⟨hm, hmn⟩ => ?_⟩
    rcases isBoundary_cons.1 hm with rfl | ⟨k, rfl, hk⟩
    · exact Nat.zero_le _
    · exact Nat.add_le_add_left (hgreatest ⟨hk, by omega⟩) _

lemma isLeast_ceilBoundary (h : n ≤ bytes cs) :
    IsLeast {m | IsBoundary cs m ∧ n ≤ m} (ceilBoundary cs n) := by
  fun_induction ceilBoundary cs n with
  | case1 n => exact ⟨⟨isBoundary_zero [], h⟩, fun m _ => Nat.zero_le m⟩
  | case2 c cs => exact ⟨⟨isBoundary_zero _, le_rfl⟩, fun m _ => Nat.zero_le m⟩
  | case3 c cs n hn ih =>
    rw [bytes_cons] at h
    obtain ⟨⟨hceil, hle⟩, hleast⟩ := ih (by omega)
    refine ⟨⟨isBoundary_cons.2 (.inr ⟨_, rfl, hceil⟩), by omega⟩, fun m ⟨hm, hnm⟩ => ?_⟩
    rcases isBoundary_cons.1 hm with rfl | ⟨k, rfl, hk⟩
    · omega
    · exact Nat.add_le_add_left (hleast ⟨hk, by omega⟩) _

lemma isGreatest_lower (cs : List Char) (n : ℕ) :
    IsGreatest {m | IsBoundary cs m ∧ m ≤ n} (lower cs n) := by
  induction n with
  | zero => exact ⟨⟨isBoundary_zero cs, le_rfl⟩, fun m hm => hm.2⟩
  | succ n ih =>
    rw [lower]
    split
    · next hn => exact ⟨⟨isSome_dropBytes?.1 hn, le_rfl⟩, fun m hm => hm.2⟩
    · next hn =>
      refine ⟨⟨ih.1.1, ih.1.2.trans (Nat.le_succ n)⟩, fun m ⟨hm, hle⟩ => ih.2 ⟨hm, ?_⟩⟩
      have hne : m ≠ n + 1 := by
        rintro rfl
        exact hn (isSome_dropBytes?.2 hm)
      omega

lemma isLeast_raise (h : n ≤ bytes cs) : IsLeast {m | IsBoundary cs m ∧ n ≤ m} (raise cs n) := by
  fun_induction raise cs n with
  | case1 n hn ih =>
    obtain ⟨⟨hraise, hle⟩, hleast⟩ := ih hn.1
    refine ⟨⟨hraise, by omega⟩, fun m ⟨hm, hnm⟩ => hleast ⟨hm, ?_⟩⟩
    have hne : m ≠ n := by
      rintro rfl
      exact hn.2 (isSome_dropBytes?.2 hm)
    omega
  | case2 n hn =>
    refine ⟨⟨?_, le_rfl⟩, fun m hm => hm.2⟩
    obtain hlt | rfl := Nat.lt_or_eq_of_le h
    · exact isSome_dropBytes?.1 (not_not.1 fun hnot => hn ⟨hlt, hnot⟩)
    · exact isBoundary_bytes cs

/-- Where the sum can be taken, the bounds are those of the excerpt. -/
lemma window?_eq (h : offset + Window.radius ≤ max) :
    window? max cs offset = some (Window.around cs offset) := by
  have hle : min (offset + Window.radius) (bytes cs) ≤ bytes cs := Nat.min_le_right _ _
  rw [window?, add?, if_pos h, Option.map_some, Window.around,
    (isGreatest_lower cs _).unique (isGreatest_floorBoundary cs _),
    (isLeast_raise hle).unique (isLeast_ceilBoundary hle)]

/-- No more than the bytes of a character but one are left out, or all beyond the end. -/
lemma min_le_floorBoundary (cs : List Char) (n : ℕ) :
    min n (bytes cs) ≤ floorBoundary cs n + 3 := by
  have hgreatest := (isGreatest_floorBoundary cs n).2
  rcases isBoundary_or_inside (Nat.min_le_right n (bytes cs)) with
    hn | ⟨m, k, hm, -, hlow, hhigh, hsize⟩
  · have := hgreatest ⟨hn, Nat.min_le_left _ _⟩
    omega
  · have := hgreatest ⟨hm, hlow.le.trans (Nat.min_le_left _ _)⟩
    omega

lemma ceilBoundary_le (h : n ≤ bytes cs) : ceilBoundary cs n ≤ n + 3 := by
  have hleast := (isLeast_ceilBoundary h).2
  rcases isBoundary_or_inside h with hn | ⟨m, k, -, hk, hlow, hhigh, hsize⟩
  · have := hleast ⟨hn, le_rfl⟩
    omega
  · have := hleast ⟨hk, hhigh.le⟩
    omega

/-- A boundary up to three bytes below where the first bound starts from. -/
lemma around_start (cs : List Char) (offset : ℕ) :
    IsBoundary cs (Window.around cs offset).start ∧
      (Window.around cs offset).start ≤ offset - 12 ∧
      min (offset - 12) (bytes cs) ≤ (Window.around cs offset).start + 3 :=
  have ⟨hstart, hle⟩ := (isGreatest_floorBoundary cs (offset - Window.radius)).1
  ⟨hstart, hle, min_le_floorBoundary cs (offset - Window.radius)⟩

/-- A boundary up to three bytes above where the second bound starts from. -/
lemma around_stop (cs : List Char) (offset : ℕ) :
    IsBoundary cs (Window.around cs offset).stop ∧
      min (offset + 12) (bytes cs) ≤ (Window.around cs offset).stop ∧
      (Window.around cs offset).stop ≤ min (offset + 12) (bytes cs) + 3 :=
  have hmin := Nat.min_le_right (offset + Window.radius) (bytes cs)
  have ⟨hstop, hle⟩ := (isLeast_ceilBoundary hmin).1
  ⟨hstop, hle, ceilBoundary_le hmin⟩

/-- The bounds do not cross, as the second one starts from the end if the first one is there. -/
lemma around_ordered (cs : List Char) (offset : ℕ) :
    (Window.around cs offset).start ≤ (Window.around cs offset).stop := by
  obtain ⟨hstart, hlow, -⟩ := around_start cs offset
  obtain ⟨-, hhigh, -⟩ := around_stop cs offset
  have hend := le_of_isBoundary hstart
  omega

/-! ### The text between them -/

/-- Of two beginnings of a text the one of fewer bytes begins the other. -/
lemma prefix_of_bytes_le (h : u ++ v = u' ++ v') (hle : bytes u ≤ bytes u') : u <+: u' := by
  rcases List.append_eq_append_iff.1 h with ⟨w, rfl, -⟩ | ⟨w, rfl, -⟩
  · exact List.prefix_append u w
  · cases w with
    | nil => exact ⟨[], by simp⟩
    | cons c w =>
      have hne := bytes_cons_ne_zero c w
      rw [bytes_append] at hle
      omega

lemma dropBytes_append (u v : List Char) : dropBytes (u ++ v) (bytes u) = v := by
  induction u with
  | nil => cases v <;> rfl
  | cons c u ih =>
    rw [List.cons_append, dropBytes, if_neg (bytes_cons_ne_zero c u), bytes_cons,
      Nat.add_sub_cancel_left, ih]

lemma takeBytes_append (w v : List Char) : takeBytes (w ++ v) (bytes w) = w := by
  induction w with
  | nil =>
    cases v with
    | nil => rfl
    | cons c v => exact if_neg (Nat.not_le.2 c.utf8Size_pos)
  | cons c w ih =>
    rw [List.cons_append, takeBytes, bytes_cons, if_pos (Nat.le_add_right _ _),
      Nat.add_sub_cancel_left, ih]

/-- Two boundaries in order bound a part of the text. -/
lemma exists_between {m : ℕ} (hm : IsBoundary cs m) (hn : IsBoundary cs n) (hle : m ≤ n) :
    ∃ u w v, cs = u ++ (w ++ v) ∧ m = bytes u ∧ n = bytes u + bytes w := by
  obtain ⟨u, v, hcs, rfl⟩ := hm
  obtain ⟨u', v', hcs', rfl⟩ := hn
  obtain ⟨w, rfl⟩ := prefix_of_bytes_le (hcs.symm.trans hcs') hle
  exact ⟨u, w, v', by rw [hcs', List.append_assoc], rfl, bytes_append u w⟩

lemma exists_around (cs : List Char) (offset : ℕ) :
    ∃ u w v, cs = u ++ (w ++ v) ∧ Window.around cs offset = ⟨bytes u, bytes u + bytes w⟩ := by
  obtain ⟨u, w, v, hcs, hstart, hstop⟩ := exists_between (around_start cs offset).1
    (around_stop cs offset).1 (around_ordered cs offset)
  exact ⟨u, w, v, hcs, congrArg₂ Window.mk hstart hstop⟩

/-- The excerpt around any byte is there. -/
lemma excerpt?_eq (cs : List Char) (offset : ℕ) :
    excerpt? cs offset = some ((Window.around cs offset).read cs) := by
  obtain ⟨u, w, v, hcs, hwindow⟩ := exists_around cs offset
  rw [excerpt?, hwindow, Window.read, hcs]
  dsimp only
  rw [slice?_append, dropBytes_append, Nat.add_sub_cancel_left, takeBytes_append]

lemma bytes_read (cs : List Char) (offset : ℕ) : bytes ((Window.around cs offset).read cs) =
    (Window.around cs offset).stop - (Window.around cs offset).start := by
  obtain ⟨u, w, v, hcs, hwindow⟩ := exists_around cs offset
  rw [hwindow, Window.read, hcs]
  dsimp only
  rw [dropBytes_append, Nat.add_sub_cancel_left, takeBytes_append]

/-- **The excerpt of an error** can be taken around any byte, at the beginning, inside of a
character or beyond the end, as long as the sum with its radius can be. Its bounds are boundaries of
the text in order, with no more than thirty bytes between them. Around a byte of the text it reaches
twelve bytes to each side, or as far as the text. -/
theorem excerpt_window (source : String) (fault : ParseFault) (h : offset + 12 ≤ max) :
    ∃ w near, window? max source.toList offset = some w ∧
      slice? source.toList w.start w.stop = some near ∧
      RuleError.parseAt source fault offset = .parse fault offset (String.ofList near) ∧
      w.start ≤ w.stop ∧ w.stop ≤ bytes source.toList ∧
      IsBoundary source.toList w.start ∧ IsBoundary source.toList w.stop ∧
      bytes near = w.stop - w.start ∧ bytes near ≤ 30 ∧
      (offset ≤ bytes source.toList → w.start ≤ offset ∧ offset ≤ w.stop ∧
        (w.start = 0 ∨ w.start + 12 ≤ offset) ∧
        (w.stop = bytes source.toList ∨ offset + 12 ≤ w.stop)) := by
  obtain ⟨hstart, hlow, hdeep⟩ := around_start source.toList offset
  obtain ⟨hstop, hhigh, hwide⟩ := around_stop source.toList offset
  have hordered := around_ordered source.toList offset
  have hend := le_of_isBoundary hstop
  have hbytes := bytes_read source.toList offset
  refine ⟨_, _, window?_eq h, excerpt?_eq _ _, rfl, hordered, hend, hstart, hstop, hbytes, ?_, ?_⟩
  · rw [hbytes]
    omega
  · intro hin
    exact ⟨by omega, by omega, by omega, by omega⟩

/-- Both bounds fall into a character of four bytes as far as they can from where they go to. -/
theorem excerpt_window_widest :
    15 + 12 ≤ 27 ∧ ∃ w near, window? 27 "😀abcdefghijklmnopqrstuv😀".toList 15 = some w ∧
      slice? "😀abcdefghijklmnopqrstuv😀".toList w.start w.stop = some near ∧
      w = ⟨0, 30⟩ ∧ bytes near = 30 := by
  have hsum : 15 + 12 ≤ 27 := by decide
  obtain ⟨w, near, hw, hnear, -, -, -, -, -, hbytes, -⟩ :=
    excerpt_window "😀abcdefghijklmnopqrstuv😀" .unexpectedEnd hsum
  have haround : Window.around "😀abcdefghijklmnopqrstuv😀".toList 15 = ⟨0, 30⟩ := by decide
  obtain rfl : w = ⟨0, 30⟩ := by
    rw [window?_eq hsum, haround] at hw
    exact (Option.some.inj hw).symm
  exact ⟨hsum, _, near, hw, hnear, rfl, hbytes⟩

end RecordRules.Positions
