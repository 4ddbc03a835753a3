import RecordRules.Command

/-!
Reading the arguments of the command line.

The options of the program come first, then the name of a task with options of its own. An
option takes the next argument as its value unless it has one attached, and no value that
stands alone starts with a hyphen. What an option is given counts once it is settled:
when the next option comes, or at the end. Until then a fault that comes first is told
first.
-/

namespace RecordRules.Command

/-- What an option says something about. -/
inductive Field where
  | logLevel | rule | record | trace | path | left | right
deriving DecidableEq, Repr

inductive Action where
  /-- Takes a value, once or any number of times. -/
  | value (field : Field) (repeats : Bool)
  /-- Stands alone. -/
  | flag (field : Field)
  | help
  | version
deriving DecidableEq, Repr

namespace Action

def takesValue : Action → Bool
  | value _ _ => true
  | _ => false

end Action

structure Parameter where
  short : Option Char
  long : String
  action : Action
deriving DecidableEq, Repr

def general : List Parameter := [⟨some 'h', "help", .help⟩, ⟨some 'V', "version", .version⟩]

def recordParameter : Parameter := ⟨some 'd', "record", .value .record false⟩

def programParameters : List Parameter :=
  ⟨some 'l', "log-level", .value .logLevel false⟩ :: general

def taskParameters : Task → List Parameter
  | .eval =>
    ⟨some 'r', "rule", .value .rule true⟩ :: recordParameter ::
      ⟨some 't', "trace", .flag .trace⟩ :: general
  | .resolve => ⟨some 'p', "path", .value .path false⟩ :: recordParameter :: general
  | .compare =>
    ⟨none, "left", .value .left false⟩ :: ⟨none, "right", .value .right false⟩ :: general
  | .schema => recordParameter :: general
  | .explain => ⟨some 'r', "rule", .value .rule false⟩ :: general

/-- The last option that took a value, until it is settled. -/
inductive Pending where
  | none
  | awaiting (field : Field) (repeats : Bool)
  | holding (field : Field) (repeats : Bool) (value : String)
deriving DecidableEq, Repr

/-- What has been given so far, in order. -/
structure Given where
  values : List (Field × String) := []
  pending : Pending := .none
deriving DecidableEq, Repr

namespace Given

/-- Counts a value; a field that does not repeat has one at most. -/
def record (g : Given) (field : Field) (repeats : Bool) (value : String) : Except Usage Given :=
  if !repeats && g.values.any (·.1 == field) then .error .repeatedArgument
  else .ok { g with values := g.values ++ [(field, value)] }

def settle (g : Given) : Except Usage Given :=
  match g.pending with
  | .none => .ok g
  | .awaiting _ _ => .error .missingValue
  | .holding field repeats value => { g with pending := .none }.record field repeats value

/-- A parameter with the value attached to it, if there is one. -/
def meet (g : Given) (p : Parameter) (attached : Option String) : Except Usage Given :=
  match g.settle with
  | .error e => .error e
  | .ok g =>
    match p.action, attached with
    | .help, _ => .error .help
    | .version, _ => .error .version
    | .flag field, _ => g.record field false ""
    | .value field repeats, some value => g.record field repeats value
    | .value field repeats, none => .ok { g with pending := .awaiting field repeats }

/-- An argument that starts with two hyphens. -/
def meetLong (g : Given) (ps : List Parameter) (text : List Char) : Except Usage Given :=
  let name := String.ofList (text.takeWhile (· != '='))
  let attached := match text.dropWhile (· != '=') with
    | [] => none
    | _ :: value => some (String.ofList value)
  match ps.find? (·.long == name) with
  | none => .error .unknownArgument
  | some p =>
    if attached.isSome && !p.action.takesValue then .error .valueForFlag else g.meet p attached

/-- An argument that starts with one hyphen: flags, and last an option with the rest as its
value, after an equals sign or at once. -/
def meetShort (g : Given) (ps : List Parameter) : List Char → Except Usage Given
  | [] => .ok g
  | c :: cs =>
    match ps.find? (·.short == some c) with
    | none => .error .unknownArgument
    | some p =>
      if p.action.takesValue then
        g.meet p (match cs with
          | [] => none
          | '=' :: value => some (String.ofList value)
          | value => some (String.ofList value))
      else match g.meet p none with
        | .error e => .error e
        | .ok g => g.meetShort ps cs

/-- Where options end: with the arguments, at a word that belongs to none, or at a word
after two hyphens alone. -/
inductive Stop where
  | ended
  | word (word : String) (rest : List String)
  | afterBreak (word : String)
deriving DecidableEq, Repr

/-- Reads options up to where they end. -/
def meetAll (g : Given) (ps : List Parameter) : List String → Except Usage (Given × Stop)
  | [] => .ok (g, .ended)
  | a :: as =>
    match a.toList with
    | ['-', '-'] =>
      .ok (g, match as with
        | [] => .ended
        | w :: _ => .afterBreak w)
    | '-' :: '-' :: text =>
      match g.meetLong ps text with
      | .error e => .error e
      | .ok g => g.meetAll ps as
    | '-' :: c :: text =>
      match g.meetShort ps (c :: text) with
      | .error e => .error e
      | .ok g => g.meetAll ps as
    | _ =>
      match g.pending with
      | .awaiting field repeats =>
        { g with pending := .holding field repeats a }.meetAll ps as
      | _ => .ok (g, .word a as)

def all (g : Given) (field : Field) : List String :=
  (g.values.filter (·.1 == field)).map Prod.snd

/-- The value of a field that must be given. -/
def need (g : Given) (field : Field) : Except Usage String :=
  match g.all field with
  | [] => .error .missingArgument
  | value :: _ => .ok value

def command (g : Given) : Task → Except Usage Command
  | .eval => do
    let _ ← g.need .rule
    return .eval (g.all .rule) (← g.need .record) (g.all .trace != [])
  | .resolve => return .resolve (← g.need .path) (← g.need .record)
  | .compare => return .compare (← g.need .left) (← g.need .right)
  | .schema => return .schema (← g.need .record)
  | .explain => return .explain (← g.need .rule)

end Given

/-- The command that the arguments after the name of a task give. -/
def ofArguments (task : Task) (args : List String) : Except Usage Command := do
  match ← Given.meetAll {} (taskParameters task) args with
  | (g, .ended) => (← g.settle).command task
  | (_, .word _ _) | (_, .afterBreak _) => throw .unknownArgument

/-- What the word for help with a task shows. -/
def helpOn : List String → Usage
  | [] => .help
  | [name] => if name == "help" || (Task.ofName? name).isSome then .help else .unknownCommand
  | _ => .unknownCommand

end Command

/-- The invocation that the arguments of the program give. -/
def Invocation.ofArguments (args : List String) : Except Usage Invocation := do
  match ← Command.Given.meetAll {} Command.programParameters args with
  | (g, .ended) =>
    if (← g.settle).values.isEmpty then throw .noArguments else throw .missingCommand
  | (_, .afterBreak name) =>
    if name == "help" || (Task.ofName? name).isSome then throw .unknownArgument
    else throw .unknownCommand
  | (g, .word name rest) =>
    if name == "help" then throw (Command.helpOn rest)
    else match Task.ofName? name with
      | none => throw .unknownCommand
      | some task =>
        let command ← Command.ofArguments task rest
        return ⟨((← g.settle).all .logLevel).head?, command⟩

end RecordRules
