import RecordRules.Config.Setting
import RecordRules.Json.Quoted

/-!
Settings files, in a small part of TOML: comments, entries of strings, integers and truth
values, and sections that hold entries. Each line says one thing, and no name is given
twice.
-/

namespace RecordRules.Config.Toml

def isBlank (c : Char) : Bool := c == ' ' || c == '\t'

def skipBlanks (cs : List Char) : List Char := cs.dropWhile isBlank

def isKeyPart (c : Char) : Bool := c.isAlphanum || c == '_' || c == '-'

/-- Nothing but blanks and a comment is left of the line. -/
def isOver (cs : List Char) : Bool :=
  match skipBlanks cs with
  | [] => true
  | c :: _ => c == '#'

/-- A string up to its closing quote, as it stands. -/
def readLiteral (cs : List Char) : Option (List Char × List Char) :=
  match cs.dropWhile (· != '\'') with
  | [] => none
  | _ :: r => some (cs.takeWhile (· != '\''), r)

def escapes : List (Char × Char) := [
  ('"', '"'), ('\\', '\\'), ('b', '\x08'), ('f', '\x0c'), ('n', '\n'), ('r', '\r'), ('t', '\t')]

/-- A string up to its closing quote, with escapes. -/
def readBasic : List Char → Option (List Char × List Char)
  | [] => none
  | '"' :: r => some ([], r)
  | '\\' :: 'u' :: a :: b :: c :: d :: r => do
    let u ← Json.Quoted.unit? [a, b, c, d]
    if 0xD800 ≤ u ∧ u < 0xE000 then none
    else
      let (t, r') ← readBasic r
      return (Char.ofNat u :: t, r')
  | '\\' :: e :: r => do
    let c ← escapes.lookup e
    let (t, r') ← readBasic r
    return (c :: t, r')
  | c :: r =>
    if c == '\\' || (c < ' ' && c != '\t') || c == '\x7f' then none
    else do
      let (t, r') ← readBasic r
      return (c :: t, r')

/-- An integer: no zero stands before other digits, and single underscores may stand
between them. -/
def integer? (text : List Char) : Option Int64 :=
  let digits := match text with
    | '+' :: ds => ds
    | '-' :: ds => ds
    | ds => ds
  let grouped := (digits.splitOn '_').all (· != [])
  let padded := digits.length > 1 && digits.head? == some '0'
  if grouped && !padded then Scalar.integer? (text.filter (· != '_')) else none

def readScalar (cs : List Char) : Option (Scalar × List Char) :=
  match cs with
  | [] => none
  | c :: r =>
    if c = '"' then (readBasic r).map fun (t, r') => (.str (String.ofList t), r')
    else if c = '\'' then (readLiteral r).map fun (t, r') => (.str (String.ofList t), r')
    else
      let isPart (c : Char) := isKeyPart c || c == '+'
      let word := cs.takeWhile isPart
      let rest := cs.dropWhile isPart
      if word = "true".toList then some (.bool true, rest)
      else if word = "false".toList then some (.bool false, rest)
      else (integer? word).map fun i => (.int i, rest)

inductive Line where
  | blank
  | section (name : String)
  | entry (name : String) (value : Scalar)

/-- The name at the front, and what follows it and the blanks around it. -/
def readName (cs : List Char) : Option (String × List Char) :=
  let cs := skipBlanks cs
  let name := cs.takeWhile isKeyPart
  if name = [] then none
  else some (String.ofList name, skipBlanks (cs.dropWhile isKeyPart))

def Line.read (cs : List Char) : Option Line :=
  if isOver cs then some .blank
  else match skipBlanks cs with
    | '[' :: r =>
      match readName r with
      | some (name, ']' :: r') => if isOver r' then some (.section name) else none
      | _ => none
    | r =>
      match readName r with
      | some (name, '=' :: r') =>
        match readScalar (skipBlanks r') with
        | some (value, rest) => if isOver rest then some (.entry name value) else none
        | none => none
      | _ => none

/-- The entries of a table with one more, which must be new. -/
def add (name : String) (s : Setting) (es : List (String × Setting)) :
    Option (List (String × Setting)) :=
  if es.any (·.1 == name) then none else some (es ++ [(name, s)])

/-- The settings of lines, added to those of the section that is open, or to the whole
where none is. -/
def ofLines (whole : List (String × Setting)) (part : Option (String × List (String × Setting))) :
    List Line → Option (List (String × Setting))
  | [] =>
    match part with
    | none => some whole
    | some (name, es) => add name (.table es) whole
  | .blank :: ls => ofLines whole part ls
  | .section name :: ls =>
    match part with
    | none => ofLines whole (some (name, [])) ls
    | some (name', es) =>
      (add name' (.table es) whole).bind fun whole => ofLines whole (some (name, [])) ls
  | .entry name value :: ls =>
    match part with
    | none => (add name (.scalar value) whole).bind fun whole => ofLines whole none ls
    | some (name', es) =>
      (add name (.scalar value) es).bind fun es => ofLines whole (some (name', es)) ls

/-- The line without the carriage return that may end it. -/
def chomp (cs : List Char) : List Char :=
  match cs.reverse with
  | '\r' :: r => r.reverse
  | _ => cs

/-- The settings of a file, if it is well formed. -/
def read (text : String) : Option (List (String × Setting)) :=
  ((text.toList.splitOn '\n').mapM fun l => Line.read (chomp l)).bind (ofLines [] none)

end RecordRules.Config.Toml
