import RecordRules.Number.Int64
import RecordRules.Text.Blank
import RecordRules.Text.Bytes
import RecordRules.Text.Escaped
import RecordRules.Text.Ident
import RecordRules.Text.Quoted

/-!
Paths to attributes.

A path is an identifier followed by steps: a point and an identifier, or an index in
brackets. An index is an integer, a quoted key or an identifier, with blanks around it.
A reader that stops early says what is wrong and gives the text from there on, so that
the place can be told from how much is left.
-/

namespace RecordRules

inductive Key where
  | int (i : Int64)
  | str (s : String)
deriving DecidableEq, Repr

def Key.text : Key → String
  | .int i => Number.showInt64 i
  | .str s => Text.escaped s

inductive Segment where
  | attr (name : String)
  | index (key : Key)
deriving DecidableEq, Repr

inductive PathFault where
  | invalid
  | openQuote
deriving DecidableEq, Repr

namespace Segment

open Text

def text : Segment → String
  | attr name => name
  | index key => "[" ++ key.text ++ "]"

/-- The identifier at the front, and what follows it. -/
def readName : List Char → Except (PathFault × List Char) (String × List Char)
  | [] => .error (.invalid, [])
  | c :: cs =>
    if isIdentStart c then
      .ok (String.ofList (c :: cs.takeWhile isIdentPart), cs.dropWhile isIdentPart)
    else .error (.invalid, c :: cs)

/-- What must follow a key: blanks and the closing bracket. -/
def closeIndex (key : Key) (cs : List Char) : Except (PathFault × List Char) (Key × List Char) :=
  match skipBlanks cs with
  | [] => .error (.invalid, [])
  | c :: r => if c = ']' then .ok (key, r) else .error (.invalid, c :: r)

/-- The index after an opening bracket, up to and with the closing one. -/
def readIndex (cs : List Char) : Except (PathFault × List Char) (Key × List Char) :=
  match skipBlanks cs with
  | [] => .error (.invalid, [])
  | c :: r =>
    if isQuote c then
      match Quoted.read c r with
      | some q => closeIndex (.str (String.ofList q.value)) q.rest
      | none => .error (.openQuote, c :: r)
    else if c.isDigit || c == '-' then
      match Number.readInt64? (c :: r.takeWhile (·.isDigit)) with
      | some i => closeIndex (.int i) (r.dropWhile (·.isDigit))
      | none => .error (.invalid, c :: r)
    else if isIdentStart c then
      closeIndex (.str (String.ofList (c :: r.takeWhile isIdentPart))) (r.dropWhile isIdentPart)
    else .error (.invalid, c :: r)

theorem name_of_readName {cs r : List Char} {n : String} (h : readName cs = .ok (n, r)) :
    n = String.ofList (cs.takeWhile isIdentPart) := by
  cases cs with
  | nil => cases h
  | cons c cs =>
    simp only [readName] at h
    split at h
    · next hc =>
      cases h
      rw [List.takeWhile_cons_of_pos (isIdentPart_of_isIdentStart hc)]
    · cases h

theorem readName_length {cs r : List Char} {n : String} (h : readName cs = .ok (n, r)) :
    r.length < cs.length := by
  cases cs with
  | nil => simp [readName] at h
  | cons c cs =>
    simp only [readName] at h
    split at h
    · simp only [Except.ok.injEq, Prod.mk.injEq] at h
      have := (List.dropWhile_sublist isIdentPart (l := cs)).length_le
      rw [← h.2, List.length_cons]
      omega
    · simp at h

theorem closeIndex_length {k k' : Key} {cs r : List Char} (h : closeIndex k cs = .ok (k', r)) :
    r.length < cs.length := by
  have hb := length_skipBlanks_le cs
  simp only [closeIndex] at h
  split at h
  · simp at h
  · next hs =>
    rw [hs, List.length_cons] at hb
    split at h
    · simp only [Except.ok.injEq, Prod.mk.injEq] at h
      rw [← h.2]
      omega
    · simp at h

theorem readIndex_length {cs r : List Char} {k : Key} (h : readIndex cs = .ok (k, r)) :
    r.length < cs.length := by
  have hb := length_skipBlanks_le cs
  simp only [readIndex] at h
  split at h
  · simp at h
  · next c r' hs =>
    rw [hs, List.length_cons] at hb
    have hd (p : Char → Bool) := (List.dropWhile_sublist p (l := r')).length_le
    split at h
    · split at h
      · next hq =>
        have := closeIndex_length h
        have := Quoted.length_rest_lt hq
        omega
      · simp at h
    · split at h
      · split at h
        · have := closeIndex_length h
          have := hd (·.isDigit)
          omega
        · simp at h
      · split at h
        · have := closeIndex_length h
          have := hd isIdentPart
          omega
        · simp at h

/-- The steps after the first identifier. -/
def readSteps (cs : List Char) : Except (PathFault × List Char) (List Segment) :=
  match cs with
  | [] => .ok []
  | c :: r =>
    if c = '.' then
      match h : readName r with
      | .error e => .error e
      | .ok (n, r') =>
        have := readName_length h
        match readSteps r' with
        | .error e => .error e
        | .ok ss => .ok (.attr n :: ss)
    else if c = '[' then
      match h : readIndex r with
      | .error e => .error e
      | .ok (k, r') =>
        have := readIndex_length h
        match readSteps r' with
        | .error e => .error e
        | .ok ss => .ok (.index k :: ss)
    else .error (.invalid, c :: r)
termination_by cs.length
decreasing_by all_goals simp only [List.length_cons]; omega

def readAll (cs : List Char) : Except (PathFault × List Char) (List Segment) :=
  match readName cs with
  | .error e => .error e
  | .ok (n, r) =>
    match readSteps r with
    | .error e => .error e
    | .ok ss => .ok (.attr n :: ss)

theorem exists_of_readAll {cs : List Char} {ss : List Segment} (h : readAll cs = .ok ss) :
    ∃ n r steps, readName cs = .ok (n, r) ∧ readSteps r = .ok steps ∧ ss = .attr n :: steps := by
  unfold readAll at h
  split at h
  · cases h
  · next n r hn =>
    split at h
    · cases h
    · next steps hs =>
      cases h
      exact ⟨n, r, steps, hn, hs, rfl⟩

end Segment

/-- A path with the text it was read from. -/
structure Path where
  text : String
  segments : List Segment
  reads : Segment.readAll text.toList = .ok segments
deriving DecidableEq

namespace Path

/-- The path that a text spells, or what is wrong with it and at which byte. -/
def read (text : String) : Except (PathFault × Nat) Path :=
  match h : Segment.readAll text.toList with
  | .ok segments => .ok ⟨text, segments, h⟩
  | .error (fault, r) => .error (fault, Text.bytes text.toList - Text.bytes r)

/-- The name at the front of a path. -/
def root (p : Path) : String :=
  match p.segments with
  | .attr name :: _ => name
  | _ => ""

theorem ext_text {p q : Path} (h : p.text = q.text) : p = q := by
  obtain ⟨t, s, hs⟩ := p
  obtain ⟨t', s', hs'⟩ := q
  simp only at h
  subst h
  have : s = s' := by simpa using hs.symm.trans hs'
  subst this
  rfl

theorem text_of_read {text : String} {p : Path} (h : read text = .ok p) : p.text = text := by
  simp only [read] at h
  split at h
  · cases h
    rfl
  · simp at h

theorem read_text (p : Path) : read p.text = .ok p := by
  simp only [read]
  split
  · next s h => exact congrArg _ (ext_text rfl)
  · next h => simp [p.reads] at h

end Path

end RecordRules
