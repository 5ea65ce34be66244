import Kitchen.Log.Event
import Kitchen.Number.Numeral

-- Filter directives: which log events are let through. A directive is a level for all events, or
-- a target with a level for the events whose target begins with it.

namespace Kitchen.Log

abbrev Threshold := Option Level

structure Directive where
  -- `none` stands for every target.
  target : Option String
  threshold : Threshold
  -- Holds only inside a span.
  spanned : Bool
deriving DecidableEq, Repr

structure Filter where
  directives : List Directive
deriving DecidableEq, Repr

def asciiLower (text : String) : String := String.ofList (text.toList.map Char.toLower)

def threshold? (text : String) : Option Threshold :=
  let digits := text.toList
  if !digits.isEmpty && digits.all Char.isDigit then
    match ofDigits digits with
    | 0 => some none
    | n => (Level.all.find? fun level => level.rank = n).map some
  else
    let lower := asciiLower text
    if lower = "off" then some none
    else (Level.all.find? fun level => asciiLower level.name = lower).map some

-- A level where a directive stands for one: a name, or one digit.
def levelWord? (text : String) : Option Threshold :=
  if text.length = 1 || !text.toList.all Char.isDigit then threshold? text else none

namespace Directive

-- A letter or digit of any script counts as part of a name; only the ASCII ones can be told here
-- from other characters, so a character beyond ASCII counts unless it is blank.
def isTargetChar (c : Char) : Bool :=
  c.isAlphanum || c = '_' || c = ':' || c = '-' || (0x80 ≤ c.toNat && !Text.isBlank c)

def targetOf (name : List Char) : Option String :=
  let text := String.ofList name
  if (threshold? text).isSome then none else some text

-- After the names: nothing, or a mark that a level may follow.
def readLevel : List Char → Option Threshold
  | [] => some (some .trace)
  | ['='] => some (some .trace)
  | '=' :: level => levelWord? (String.ofList level)
  | _ => none

def readSpan : List Char → Option (List Char)
  | '[' :: rest =>
    match rest.dropWhile (· ≠ ']') with
    | ']' :: rest => some rest
    | _ => none
  | _ => none

def parse? (text : String) : Option Directive :=
  match levelWord? text with
  | some threshold => some ⟨none, threshold, false⟩
  | none =>
    let chars := text.toList
    let name := chars.takeWhile isTargetChar
    let rest := chars.dropWhile isTargetChar
    match readSpan rest with
    | some rest => (readLevel rest).map fun threshold => ⟨none, threshold, true⟩
    | none =>
      if name.isEmpty then none
      else (readLevel rest).map fun threshold => ⟨targetOf name, threshold, false⟩

def covers (d : Directive) (target : String) : Bool :=
  match d.target with
  | some start => start.toList.isPrefixOf target.toList
  | none => true

def weight (d : Directive) : Nat :=
  match d.target with
  | some start => start.utf8ByteSize + 1
  | none => 0

end Directive

namespace Filter

-- Without any directive the errors are let through. The last of two for one target counts.
def ofDirectives (directives : List Directive) : Filter :=
  match directives with
  | [] => ⟨[⟨none, some .error, false⟩]⟩
  | directives =>
    ⟨directives.foldl (fun kept d =>
      kept.filter (fun k => k.spanned || d.spanned || k.target ≠ d.target) ++ [d]) []⟩

def words (text : String) : List String := (text.splitOn ",").filter (· ≠ "")

def parse? (text : String) : Option Filter := ((words text).mapM Directive.parse?).map ofDirectives

def ofSound (text : String) : Filter := ofDirectives ((words text).filterMap Directive.parse?)

def best (kept d : Directive) : Directive := if kept.weight < d.weight then d else kept

def lets (f : Filter) (target : String) (level : Level) : Bool :=
  match f.directives.filter fun d => !d.spanned && d.covers target with
  | [] => false
  | d :: rest =>
    match (rest.foldl best d).threshold with
    | some least => level.rank ≤ least.rank
    | none => false

end Filter

end Kitchen.Log
