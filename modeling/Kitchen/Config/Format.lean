import Kitchen.Config.Folder
import Kitchen.Json.Datum
import Kitchen.Toml.Reader
import Kitchen.Yaml.Document

namespace Kitchen.Config

inductive Format where
  | json
  | toml
  | yaml
deriving DecidableEq, Repr

namespace Format

def ofExtension? : String → Option Format
  | "json" => some .json
  | "toml" => some .toml
  | "yaml" | "yml" => some .yaml
  | _ => none

-- What stands after the last point of a name, unless the point begins the name.
def extension? (name : String) : Option String :=
  let reversed := name.toList.reverse
  match reversed.dropWhile (· ≠ '.') with
  | '.' :: _ :: _ => some (String.ofList (reversed.takeWhile (· ≠ '.')).reverse)
  | _ => none

def ofPath? (path : String) : Option Format :=
  (Folder.parts path).getLast?.bind extension? |>.bind ofExtension?

def read? : Format → String → Option Datum
  | .json, text => Datum.readJson? text
  | .toml, text => Toml.read? text
  | .yaml, text => Yaml.read? text

end Format

def Datum.entries? : Datum → Option (List (String × Datum))
  | .table entries => some entries
  | _ => none

end Kitchen.Config
