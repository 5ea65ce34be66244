import Kitchen.Config.Names
import Kitchen.Config.Path

-- Environment variables as a source of configuration. A variable counts if its name begins with
-- the kitchen's own mark in any case; two underscores in the rest stand for a point.

namespace Kitchen.Config

abbrev Variables := List (String × String)

namespace Variables

def get? (vars : Variables) (name : String) : Option String := Table.find name vars

def ownMark : List Char := ['c', 'y', 'r', 'k', '_']

def pointed : List Char → List Char
  | '_' :: '_' :: rest => '.' :: pointed rest
  | c :: rest => c :: pointed rest
  | [] => []

def key? (name : String) : Option String :=
  let name := Text.lowerChars name.toList
  if ownMark.isPrefixOf name then some (String.ofList (pointed (name.drop ownMark.length)))
  else none

-- A truth value, else an integer, else a floating-point number, else the text.
def valueOf (text : String) : Scalar :=
  let small := Text.lower text
  if small = "true" then .bool true
  else if small = "false" then .bool false
  else
    match Number.int? text, Number.real? text with
    | some i, _ => .int i
    | none, some x => .real x
    | none, none => .text text

def origin : String := "the environment"

def entry? (entry : String × String) : Option (String × Tree) :=
  (key? entry.1).map (·, .scalar (some origin) (valueOf entry.2))

def source (machine : Machine) (vars : Variables) : Entries :=
  machine.walk ["environment"] (Table.collect ((machine.walk ["variables"] vars).filterMap entry?))

def environmentName (vars : Variables) : String :=
  (vars.get? Names.environment).getD "development"

end Variables

end Kitchen.Config
