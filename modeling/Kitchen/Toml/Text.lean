import Kitchen.Number.Radix

-- Blanks, comments, line ends and strings in TOML. Every function takes what it reads off the
-- front of a text and returns the rest; `none` is a fault in the text.

namespace Kitchen.Toml

def isBlank (c : Char) : Bool := c = ' ' || c = '\t'

def isPlain (c : Char) : Bool := c = '\t' || (0x20 ≤ c.toNat && c.toNat ≠ 0x7f)

def skipBlanks (text : List Char) : List Char := text.dropWhile isBlank

def skipComment : List Char → List Char
  | '#' :: rest => rest.dropWhile isPlain
  | text => text

def newline? : List Char → Option (List Char)
  | '\n' :: rest => some rest
  | '\r' :: '\n' :: rest => some rest
  | _ => none

def lineEnd? (text : List Char) : Option (List Char) :=
  match skipComment (skipBlanks text) with
  | [] => some []
  | text => newline? text

-- Blanks, comments and line ends. Each round takes a line end, so that the length of the text
-- is fuel enough.
def skipLines : Nat → List Char → List Char
  | 0, text => text
  | fuel + 1, text =>
    match newline? (skipComment (skipBlanks text)) with
    | some rest => skipLines fuel rest
    | none => skipBlanks text

def skipGap (text : List Char) : List Char := skipLines text.length text

def shortEscape? : Char → Option Char
  | 'b' => some '\x08'
  | 't' => some '\t'
  | 'n' => some '\n'
  | 'f' => some '\x0c'
  | 'r' => some '\r'
  | '"' => some '"'
  | '\\' => some '\\'
  | _ => none

def readEscape : List Char → Option (Char × List Char)
  | 'u' :: rest => Radix.readChar 4 rest
  | 'U' :: rest => Radix.readChar 8 rest
  | c :: rest => (shortEscape? c).map (·, rest)
  | [] => none

-- A string on one line, after its first mark and with the last. Each round takes a character.
def readBasic : Nat → List Char → Option (List Char × List Char)
  | 0, _ => none
  | _, [] => none
  | fuel + 1, c :: rest =>
    if c = '"' then some ([], rest)
    else if c = '\\' then
      match readEscape rest with
      | some (c, rest) => (readBasic fuel rest).map fun (text, rest) => (c :: text, rest)
      | none => none
    else if isPlain c then (readBasic fuel rest).map fun (text, rest) => (c :: text, rest)
    else none

def readLiteral : List Char → Option (List Char × List Char)
  | [] => none
  | c :: rest =>
    if c = '\'' then some ([], rest)
    else if isPlain c then (readLiteral rest).map fun (text, rest) => (c :: text, rest)
    else none

-- After three closing marks: up to two more of them end the text itself.
def closing (mark : Char) : List Char → List Char × List Char
  | c :: rest =>
    if c ≠ mark then ([], c :: rest)
    else
      match rest with
      | d :: rest => if d = mark then ([mark, mark], rest) else ([mark], d :: rest)
      | [] => ([mark], [])
  | [] => ([], [])

def threeMarks? (mark : Char) : List Char → Option (List Char)
  | a :: b :: c :: rest => if a = mark && b = mark && c = mark then some rest else none
  | _ => none

-- A string over several lines, after its first marks. A backslash at the end of a line takes the
-- blanks and line ends after it away.
def readLong (mark : Char) (escapes : Bool) : Nat → List Char → Option (List Char × List Char)
  | 0, _ => none
  | _, [] => none
  | fuel + 1, c :: rest =>
    match threeMarks? mark (c :: rest), newline? (c :: rest) with
    | some rest, _ => some (closing mark rest)
    | none, some rest =>
      (readLong mark escapes fuel rest).map fun (text, rest) => ('\n' :: text, rest)
    | none, none =>
      if escapes && c = '\\' then
        match newline? (skipBlanks rest) with
        | some rest => readLong mark escapes fuel (skipEnds rest.length rest)
        | none =>
          match readEscape rest with
          | some (c, rest) =>
            (readLong mark escapes fuel rest).map fun (text, rest) => (c :: text, rest)
          | none => none
      else if isPlain c then
        (readLong mark escapes fuel rest).map fun (text, rest) => (c :: text, rest)
      else none
where
  skipEnds : Nat → List Char → List Char
    | 0, text => text
    | fuel + 1, text =>
      match newline? (skipBlanks text) with
      | some rest => skipEnds fuel rest
      | none => skipBlanks text

-- A line end right after the first marks does not count.
def afterMarks (text : List Char) : List Char := (newline? text).getD text

def readShortString (text : List Char) : Option (String × List Char) :=
  match text with
  | '"' :: rest => (readBasic rest.length rest).map fun (text, rest) => (String.ofList text, rest)
  | '\'' :: rest => (readLiteral rest).map fun (text, rest) => (String.ofList text, rest)
  | _ => none

def readString (text : List Char) : Option (String × List Char) :=
  match threeMarks? '"' text, threeMarks? '\'' text with
  | some rest, _ =>
    (readLong '"' true rest.length (afterMarks rest)).map fun (text, rest) =>
      (String.ofList text, rest)
  | _, some rest =>
    (readLong '\'' false rest.length (afterMarks rest)).map fun (text, rest) =>
      (String.ofList text, rest)
  | none, none => readShortString text

end Kitchen.Toml
