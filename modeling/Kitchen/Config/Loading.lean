import Kitchen.Config.Environment
import Kitchen.Config.Format
import Kitchen.Config.Shape
import Kitchen.Encoding.Settings
import Kitchen.Log.Event

namespace Kitchen.Config

structure Place where
  vars : Variables
  folder : Folder
deriving DecidableEq, Repr

structure Loaded where
  settings : Settings
  environment : String
  file : Option String
deriving DecidableEq, Repr

inductive Loading where
  -- From the file that a variable names, if it does, and from the variables of the process.
  | usual
  | fromFile (path : Option String)
  -- From this file, if any, and from these variables, if there are any in place of those of the
  -- process.
  | layered (path : Option String) (vars : Option Variables)
  -- These settings, once they are checked.
  | given (settings : Settings)
deriving DecidableEq, Repr

def notReadable : String := "not a readable file"

def notUnderstood : String := "not a table in a known format"

def fileEntries (machine : Machine) (path : String) (entries : List (String × Datum)) : Entries :=
  inSmall (machine.walk ["file"]
    (Tree.ofEntries machine (Folder.tidy path) ["file"] [] entries))

def fileSource (machine : Machine) (folder : Folder) (path : String) : Except ConfigError Entries :=
  match folder.read? path with
  | none => .error (.source path notReadable)
  | some text =>
    match ((Format.ofPath? path).bind (·.read? text)).bind Datum.entries? with
    | none => .error (.source path notUnderstood)
    | some entries => .ok (fileEntries machine path entries)

def pathSource (machine : Machine) (folder : Folder) : Option String → Except ConfigError Entries
  | some path => fileSource machine folder path
  | none => .ok []

def merged (sources : List Entries) : Tree := sources.foldl Tree.laySource Tree.emptyTable

def decoded (machine : Machine) (root : Tree) : Except ConfigError Settings :=
  match root.toSettings machine with
  | .ok settings => settings.validate.map fun _ => settings
  | .error mismatch => .error (.shape mismatch.message)

-- The settings that sources make; `none` if the loading dies over an array.
def settle (machine : Machine) (sources : List Entries) : Option (Except ConfigError Settings) :=
  if Tree.safe machine.room Tree.emptyTable sources.flatten then
    some (decoded machine (merged sources))
  else none

namespace Place

def layered (machine : Machine) (p : Place) (path : Option String) (vars : Option Variables) :
    Option (Except ConfigError Loaded) :=
  match pathSource machine p.folder path with
  | .error error => some (.error error)
  | .ok file =>
    (settle machine [file, (vars.getD p.vars).source machine]).map fun settled =>
      settled.map fun settings => ⟨settings, p.vars.environmentName, path⟩

def loadOn (machine : Machine) (p : Place) : Loading → Option (Except ConfigError Loaded)
  | .usual => p.layered machine (p.vars.get? Names.configPath) none
  | .fromFile path => p.layered machine path none
  | .layered path vars => p.layered machine path vars
  | .given settings =>
    some (settings.validate.map fun _ => ⟨settings, p.vars.environmentName, none⟩)

def outOfReach : String := "an index out of reach"

-- On the plain machine, with an error in place of a death.
def load (p : Place) (way : Loading) : Except ConfigError Loaded :=
  (p.loadOn .plain way).getD (.error (.source Variables.origin outOfReach))

end Place

open Log (Event) in
def Loaded.events (l : Loaded) : List Event :=
  [⟨.debug, "Configuration loaded: " ++ l.settings.toJson.text, [], false⟩,
    .config .info "Configuration loaded successfully"
      [("environment", .quoted l.environment), ("source", .quoted (l.file.getD "environment")),
        ("workers", .digits l.settings.workers),
        ("client_timeout_ms", .digits l.settings.clientTimeoutMs)]]

open Log (Event) in
-- What is logged on the way. Given settings come without a word, and so does a failure.
def Loading.events : Loading → Except ConfigError Loaded → List Event
  | .given _, _ | _, .error _ => []
  | _, .ok loaded => loaded.events

end Kitchen.Config
