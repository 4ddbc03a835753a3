/-!
Quoted texts, as string literals and keys of paths have them.

A backslash before a quote of either kind or before a backslash stands for that character;
before any other it stands for itself.
-/

namespace RecordRules.Text

def isQuote (c : Char) : Bool := c == '\'' || c == '"'

/-- The characters that a backslash makes literal. -/
def isEscapable (c : Char) : Bool := isQuote c || c == '\\'

/-- A quoted text: the value it stands for, its characters after the opening quote with
the closing one, and what follows. -/
structure Quoted where
  value : List Char
  text : List Char
  rest : List Char
deriving DecidableEq, Repr

namespace Quoted

/-- The same quoted text with `text` put before it, which stands for `c`. -/
def push (q : Quoted) (c : Char) (text : List Char) : Quoted :=
  ⟨c :: q.value, text ++ q.text, q.rest⟩

/-- Reads on from an opening `quote`; nothing when it is never closed. -/
def read (quote : Char) : List Char → Option Quoted
  | [] => none
  | c :: cs =>
    if c = quote then some ⟨[], [c], cs⟩
    else match c, cs with
      | '\\', e :: cs' =>
        if isEscapable e then (read quote cs').map (·.push e ['\\', e])
        else (read quote (e :: cs')).map (·.push '\\' ['\\'])
      | c, cs => (read quote cs).map (·.push c [c])

/-- Nothing is lost, and something is read. -/
theorem read_text {quote : Char} {cs : List Char} {q : Quoted} (h : read quote cs = some q) :
    q.text ++ q.rest = cs ∧ q.text ≠ [] := by
  fun_induction read quote cs generalizing q with
  | case1 => simp at h
  | case2 => simp at h; subst h; simp
  | case3 _ _ _ _ ih =>
    obtain ⟨p, hp, rfl⟩ := Option.map_eq_some_iff.1 h
    simp [push, (ih hp).1]
  | case4 _ _ _ _ ih =>
    obtain ⟨p, hp, rfl⟩ := Option.map_eq_some_iff.1 h
    simp [push, (ih hp).1]
  | case5 _ _ _ _ ih =>
    obtain ⟨p, hp, rfl⟩ := Option.map_eq_some_iff.1 h
    simp [push, (ih hp).1]

theorem length_rest_lt {quote : Char} {cs : List Char} {q : Quoted}
    (h : read quote cs = some q) : q.rest.length < cs.length := by
  obtain ⟨h₁, h₂⟩ := read_text h
  have := List.length_pos_iff.2 h₂
  rw [← h₁, List.length_append]
  omega

/-- A text between quotes: a backslash goes before each quote of its kind and each
backslash. -/
def write (quote : Char) (value : List Char) : List Char :=
  quote :: value.flatMap (fun c => if c = quote ∨ c = '\\' then ['\\', c] else [c]) ++ [quote]

end Quoted

end RecordRules.Text
