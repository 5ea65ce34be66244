import Kitchen.Number.Binary64

namespace Kitchen.Config

inductive Scalar where
  | null
  | bool (value : Bool)
  | int (value : Int)
  | real (value : Binary64)
  | text (value : String)
deriving DecidableEq, Repr

inductive Datum where
  | scalar (value : Scalar)
  | array (items : List Datum)
  -- Of entries with one key the last counts.
  | table (entries : List (String × Datum))
deriving Repr, Inhabited

namespace Datum

def null : Datum := .scalar .null

def bool (value : Bool) : Datum := .scalar (.bool value)

def int (value : Int) : Datum := .scalar (.int value)

def real (value : Binary64) : Datum := .scalar (.real value)

def text (value : String) : Datum := .scalar (.text value)

end Datum

end Kitchen.Config
