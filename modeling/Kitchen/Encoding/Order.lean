import Kitchen.Json.Basic
import Kitchen.Order

-- States of orders and of pagers in JSON: their name, or an object with the name as its only key
-- and nothing as its value.

namespace Kitchen

namespace Encoding

def name? : Json → Option String
  | .str name => some name
  | .obj [(name, .null)] => some name
  | _ => none

end Encoding

def OrderState.toJson (s : OrderState) : Json := .str s.name

def OrderState.ofJson? (value : Json) : Option OrderState := (Encoding.name? value).bind ofName?

def Readiness.toJson (r : Readiness) : Json := .str r.name

def Readiness.ofJson? (value : Json) : Option Readiness := (Encoding.name? value).bind ofName?

end Kitchen
