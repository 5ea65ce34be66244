namespace Kitchen.Config

-- A folder: the paths of files in it with what they hold, and the paths of folders in it.
structure Folder where
  files : List (String × String)
  folders : List String
deriving DecidableEq, Repr

namespace Folder

def split (mark : Char) : List Char → List (List Char)
  | [] => [[]]
  | c :: rest =>
    if c = mark then [] :: split mark rest
    else
      match split mark rest with
      | piece :: pieces => (c :: piece) :: pieces
      | [] => [[c]]

def pieces (path : String) : List String := (split '/' path.toList).map String.ofList

-- The parts of a path. A single point stands for the folder itself.
def parts (path : String) : List String :=
  (pieces path).filter fun part => part ≠ "" && part ≠ "."

def tidy (path : String) : String := "/".intercalate (parts path)

-- Whether a file lies below a place, so that the place is a folder.
def holdsFile (f : Folder) (place : List String) : Bool :=
  f.files.any fun (path, _) => place.isPrefixOf (parts path).dropLast

def isFolder (f : Folder) (place : List String) : Bool :=
  place.isEmpty || f.folders.any (parts · = place) || f.holdsFile place

def file? (f : Folder) (place : List String) : Option String :=
  (f.files.find? fun (path, _) => parts path = place).map (·.2)

-- What lies at the end of the way from a place: the content of a file. Two points lead back.
def walk (f : Folder) (place : List String) : List String → Option String
  | [] => none
  | [part] => if part = ".." then none else f.file? (place ++ [part])
  | part :: rest =>
    if part = ".." then if place.isEmpty then none else f.walk place.dropLast rest
    else if f.isFolder (place ++ [part]) then f.walk (place ++ [part]) rest
    else none

def isElsewhere (path : String) : Bool :=
  match pieces path with
  | [] => true
  | first :: rest =>
    (first = "" && !rest.isEmpty) ||
      match (first :: rest).getLast? with
      | some last => last = "" || last = "." || last = ".."
      | none => true

def read? (f : Folder) (path : String) : Option String :=
  if isElsewhere path then none else f.walk [] (parts path)

end Folder

end Kitchen.Config
