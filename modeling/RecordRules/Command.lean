/-!
The commands of the command line, and what can be wrong with its arguments.
-/

namespace RecordRules

inductive Task where
  | eval | resolve | compare | schema | explain
deriving DecidableEq, Repr

namespace Task

def all : List Task := [.eval, .resolve, .compare, .schema, .explain]

def name : Task → String
  | eval => "eval"
  | resolve => "resolve"
  | compare => "compare"
  | schema => "schema"
  | explain => "explain"

def ofName? (name : String) : Option Task := all.find? (·.name == name)

end Task

/-- What is to be done, with the texts it is to be done to. Records are given by their
JSON text, or by an at sign and the name of a file that holds it. -/
inductive Command where
  | eval (rules : List String) (record : String) (traced : Bool)
  | resolve (path record : String)
  | compare (left right : String)
  | schema (record : String)
  | explain (rule : String)
deriving DecidableEq, Repr

/-- A command and the level of logging that was asked for. -/
structure Invocation where
  logLevel : Option String
  command : Command
deriving DecidableEq, Repr

/-- Why there is no command to run: a fault in the arguments, or a question about the
program itself. -/
inductive Usage where
  | noArguments
  | missingCommand
  | unknownCommand
  | unknownArgument
  | missingArgument
  | missingValue
  | repeatedArgument
  | valueForFlag
  | help
  | version
deriving DecidableEq, Repr

namespace Usage

def name : Usage → String
  | noArguments => "DisplayHelpOnMissingArgumentOrSubcommand"
  | missingCommand => "MissingSubcommand"
  | unknownCommand => "InvalidSubcommand"
  | unknownArgument => "UnknownArgument"
  | missingArgument => "MissingRequiredArgument"
  | missingValue => "InvalidValue"
  | repeatedArgument => "ArgumentConflict"
  | valueForFlag => "TooManyValues"
  | help => "DisplayHelp"
  | version => "DisplayVersion"

end Usage

end RecordRules
