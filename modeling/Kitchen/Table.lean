-- Finite maps kept as a list of entries in the order in which the keys came first. The
-- statements say what a look-up finds after each change.

namespace Kitchen

-- A finite map; a key is looked up at its first entry.
structure Table (κ ν : Type) where
  entries : List (κ × ν)
deriving DecidableEq, Repr

namespace Table

variable {κ ν : Type} [DecidableEq κ]

def empty : Table κ ν := ⟨[]⟩

def find (key : κ) : List (κ × ν) → Option ν
  | [] => none
  | (k, v) :: rest => if k = key then some v else find key rest

def put (key : κ) (value : ν) : List (κ × ν) → List (κ × ν)
  | [] => [(key, value)]
  | (k, v) :: rest => if k = key then (k, value) :: rest else (k, v) :: put key value rest

def get? (t : Table κ ν) (key : κ) : Option ν := find key t.entries

def insert (t : Table κ ν) (key : κ) (value : ν) : Table κ ν := ⟨put key value t.entries⟩

def erase (t : Table κ ν) (key : κ) : Table κ ν := ⟨t.entries.filter fun e => e.1 ≠ key⟩

def modify (t : Table κ ν) (key : κ) (change : ν → ν) : Table κ ν :=
  match t.get? key with
  | some v => t.insert key (change v)
  | none => t

def contains (t : Table κ ν) (key : κ) : Bool := (t.get? key).isSome

def keys (t : Table κ ν) : List κ := t.entries.map (·.1)

def ofList (entries : List (κ × ν)) : Table κ ν :=
  entries.foldl (fun t e => t.insert e.1 e.2) empty

-- Of entries with one key the last counts, in the place of the first.
def collect (entries : List (κ × ν)) : List (κ × ν) :=
  entries.foldl (fun done e => put e.1 e.2 done) []

@[simp] theorem get?_empty (key : κ) : (empty : Table κ ν).get? key = none := rfl

theorem find_put (a key : κ) (value : ν) (entries : List (κ × ν)) :
    find a (put key value entries) = if key = a then some value else find a entries := by
  induction entries with
  | nil => simp [put, find]
  | cons e rest ih =>
    obtain ⟨k, v⟩ := e
    by_cases hk : k = key
    · subst hk
      by_cases ha : k = a <;> simp [put, find, ha]
    · simp only [put, hk, if_false, find, ih]
      by_cases ha : k = a
      · subst ha
        simp [Ne.symm hk]
      · simp [ha]

theorem get?_insert (t : Table κ ν) (key a : κ) (value : ν) :
    (t.insert key value).get? a = if key = a then some value else t.get? a :=
  find_put a key value t.entries

@[simp] theorem get?_insert_self (t : Table κ ν) (key : κ) (value : ν) :
    (t.insert key value).get? key = some value := by
  simp [get?_insert]

theorem get?_insert_of_ne (t : Table κ ν) {key a : κ} (value : ν) (h : key ≠ a) :
    (t.insert key value).get? a = t.get? a := by
  simp [get?_insert, h]

theorem find_filter_ne (a key : κ) (entries : List (κ × ν)) :
    find a (entries.filter fun e => e.1 ≠ key) = if key = a then none else find a entries := by
  induction entries with
  | nil => simp [find]
  | cons e rest ih =>
    obtain ⟨k, v⟩ := e
    by_cases hk : k = key
    · subst hk
      by_cases ha : k = a <;> simp_all [find]
    · by_cases ha : k = a
      · subst ha
        simp [find, hk, Ne.symm hk]
      · simp_all [find]

theorem get?_erase (t : Table κ ν) (key a : κ) :
    (t.erase key).get? a = if key = a then none else t.get? a :=
  find_filter_ne a key t.entries

@[simp] theorem get?_erase_self (t : Table κ ν) (key : κ) : (t.erase key).get? key = none := by
  simp [get?_erase]

theorem get?_erase_of_ne (t : Table κ ν) {key a : κ} (h : key ≠ a) :
    (t.erase key).get? a = t.get? a := by
  simp [get?_erase, h]

theorem get?_modify (t : Table κ ν) (key a : κ) (change : ν → ν) :
    (t.modify key change).get? a = if key = a then (t.get? a).map change else t.get? a := by
  unfold modify
  split
  next v h =>
    by_cases ha : key = a
    · subst ha
      simp [h]
    · simp [get?_insert, ha]
  next h =>
    by_cases ha : key = a
    · subst ha
      simp [h]
    · simp [ha]

end Table

end Kitchen
