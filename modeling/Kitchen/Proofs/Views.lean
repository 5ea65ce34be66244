import Kitchen.Proofs.Trees
import Mathlib.Data.List.Perm.Basic

-- A tree as what is seen at the end of each way into it. What is set at two paths that part is seen
-- the same in whatever order it is set; the entries of a table may then be in another order.

namespace Kitchen.Config

-- What a value is without what is in it.
inductive Face where
  | absent
  | scalar (origin : Option String) (value : Scalar)
  | array (origin : Option String) (length : Nat)
  | table (origin : Option String)
deriving DecidableEq, Repr

namespace Face

def tableOrigin : Face → Option String
  | .table origin => origin
  | _ => none

def arrayOrigin : Face → Option String
  | .array origin _ => origin
  | _ => none

def length : Face → Nat
  | .array _ length => length
  | _ => 0

end Face

inductive Way where
  | entry (key : String)
  | item (place : Nat)
deriving DecidableEq, Repr

abbrev View := List Way → Face

namespace View

def only (face : Face) : View
  | [] => face
  | _ :: _ => .absent

def below (way : Way) (v : View) : View := fun ways => v (way :: ways)

def enter (key : String) (entry : View) (v : View) : View
  | [] => .table (v []).tableOrigin
  | .entry name :: ways => if key = name then entry ways else v (.entry name :: ways)
  | .item _ :: _ => .absent

def grown (place : Option Nat) (length : Nat) : Nat :=
  match place with
  | some n => max length (n + 1)
  | none => length

-- An array with another item, if there is a place for it. What is missing before it is null.
def fill (place : Option Nat) (item : View) (v : View) : View
  | [] => .array (v []).arrayOrigin (grown place (v []).length)
  | .item n :: ways =>
    if place = some n then item ways
    else if (v []).length ≤ n ∧ n < grown place (v []).length then only (.scalar none .null) ways
    else v (.item n :: ways)
  | .entry _ :: _ => .absent

-- The item at a place; one that is missing is made of null.
def slot (place : Option Nat) (v : View) : View :=
  match place with
  | some n => if n < (v []).length then below (.item n) v else only (.scalar none .null)
  | none => only .absent

def put (face : Face) : List PathStep → View → View
  | [], _ => only face
  | .name key :: steps, v => enter key (put face steps (below (.entry key) v)) v
  | .index i :: steps, v =>
    let place := Tree.place? i (v []).length
    fill place (put face steps (slot place v)) v

end View

namespace Tree

def view : Option Tree → View
  | none, _ => .absent
  | some (.scalar origin value), [] => .scalar origin value
  | some (.array origin items), [] => .array origin items.length
  | some (.table origin _), [] => .table origin
  | some (.array _ items), .item n :: ways => view items[n]? ways
  | some (.table _ entries), .entry key :: ways => view (Table.find key entries) ways
  | some _, _ :: _ => .absent

end Tree

-- Where two paths part: at two names, or at two places counted from the same end.
def PathStep.parts : PathStep → PathStep → Bool
  | .name a, .name b => a ≠ b
  | .index (.ofNat a), .index (.ofNat b) => a ≠ b
  | .index (.negSucc a), .index (.negSucc b) => a ≠ b
  | _, _ => false

def PathStep.apart : List PathStep → List PathStep → Bool
  | a :: as, b :: bs => if a = b then apart as bs else a.parts b
  | _, _ => false

theorem PathStep.parts_comm (a b : PathStep) : a.parts b = b.parts a := by
  rcases a with _ | _ | _ <;> rcases b with _ | _ | _ <;> simp [parts, eq_comm]

namespace View

variable {v entry other : View} {key name : String} {place : Option Nat} {face : Face}

@[simp] theorem below_enter_self (key : String) (entry v : View) :
    below (.entry key) (enter key entry v) = entry := by
  funext ways
  simp [below, enter]

theorem below_enter_of_ne (apart : key ≠ name) (entry v : View) :
    below (.entry name) (enter key entry v) = below (.entry name) v := by
  funext ways
  simp [below, enter, apart]

@[simp] theorem enter_enter (key : String) (entry other v : View) :
    enter key entry (enter key other v) = enter key entry v := by
  funext ways
  rcases ways with _ | ⟨⟨name⟩ | n, ways⟩
  · rfl
  · by_cases same : key = name <;> simp [enter, same]
  · rfl

theorem enter_comm (apart : key ≠ name) (entry other v : View) :
    enter key entry (enter name other v) = enter name other (enter key entry v) := by
  funext ways
  rcases ways with _ | ⟨⟨third⟩ | n, ways⟩
  · rfl
  · by_cases first : key = third
    · subst first
      simp [enter, Ne.symm apart]
    · simp [enter, first]
  · rfl

@[simp] theorem fill_length (place : Option Nat) (item v : View) :
    (fill place item v []).length = grown place (v []).length := rfl

@[simp] theorem fill_arrayOrigin (place : Option Nat) (item v : View) :
    (fill place item v []).arrayOrigin = (v []).arrayOrigin := rfl

theorem fill_nil (place : Option Nat) (item v : View) :
    fill place item v [] = .array (v []).arrayOrigin (grown place (v []).length) := rfl

theorem fill_self (n : Nat) (item v : View) (ways : List Way) :
    fill (some n) item v (.item n :: ways) = item ways := by
  simp [fill]

theorem fill_other {n : Nat} (other : place ≠ some n) (item v : View) (ways : List Way) :
    fill place item v (.item n :: ways) =
      if (v []).length ≤ n ∧ n < grown place (v []).length then only (.scalar none .null) ways
      else v (.item n :: ways) := by
  rw [fill, if_neg other]

theorem le_grown (place : Option Nat) (length : Nat) : length ≤ grown place length := by
  unfold grown
  split <;> omega

theorem lt_grown (n length : Nat) : n < grown (some n) length := by
  simp only [grown]
  omega

theorem grown_comm (first second : Option Nat) (length : Nat) :
    grown first (grown second length) = grown second (grown first length) := by
  cases first <;> cases second <;> simp only [grown]
  omega

-- Items do not move when an array grows to take one in.
theorem place?_grown (i : Int) (length : Nat) :
    Tree.place? i (grown (Tree.place? i length) length) = Tree.place? i length := by
  cases i with
  | ofNat n => rfl
  | negSucc n =>
    by_cases within : n + 1 ≤ length
    · have same : max length (length - (n + 1) + 1) = length := by omega
      simp only [Tree.place?, within, if_true, grown, same]
    · simp only [Tree.place?, within, if_false, grown]

theorem place?_parts {i j : Int} (parts : (PathStep.index i).parts (.index j) = true)
    (length : Nat) :
    Tree.place? i (grown (Tree.place? j length) length) = Tree.place? i length ∧
      ∀ n, Tree.place? i length = some n → Tree.place? j length ≠ some n := by
  cases i with
  | ofNat a =>
    cases j with
    | ofNat b =>
      simp only [PathStep.parts, decide_eq_true_eq] at parts
      refine ⟨rfl, ?_⟩
      rintro n ⟨⟩ same
      cases same
      exact parts rfl
    | negSucc b => simp [PathStep.parts] at parts
  | negSucc a =>
    cases j with
    | ofNat b => simp [PathStep.parts] at parts
    | negSucc b =>
      simp only [PathStep.parts, decide_eq_true_eq] at parts
      have still : grown (Tree.place? (.negSucc b) length) length = length := by
        by_cases within : b + 1 ≤ length
        · simp only [Tree.place?, within, if_true, grown]
          omega
        · simp only [Tree.place?, within, if_false, grown]
      refine ⟨by rw [still], ?_⟩
      intro n first second
      simp only [Tree.place?] at first second
      split at first <;> split at second <;> simp at first second
      omega

theorem fill_fill (place : Option Nat) (item other v : View) :
    fill place item (fill place other v) = fill place item v := by
  have idle : grown place (grown place (v []).length) = grown place (v []).length := by
    cases place <;> simp only [grown]
    omega
  funext ways
  rcases ways with _ | ⟨⟨name⟩ | n, ways⟩
  · rw [fill_nil, fill_length, fill_arrayOrigin, idle, fill_nil]
  · rfl
  · by_cases same : place = some n
    · subst same
      rw [fill_self, fill_self]
    · have full : ¬(grown place (v []).length ≤ n ∧ n < grown place (v []).length) := by omega
      rw [fill_other same, fill_length, idle, if_neg full, fill_other same, fill_other same]

theorem fill_comm {first second : Option Nat}
    (apart : ∀ n, first = some n → second ≠ some n) (item other v : View) :
    fill first item (fill second other v) = fill second other (fill first item v) := by
  have most := grown_comm first second (v []).length
  funext ways
  rcases ways with _ | ⟨⟨name⟩ | n, ways⟩
  · rw [fill_nil first, fill_length, fill_arrayOrigin, fill_nil second, fill_length,
      fill_arrayOrigin, most]
  · rfl
  by_cases mine : first = some n
  · have others := apart n mine
    subst mine
    have there := lt_grown n (v []).length
    rw [fill_self, fill_other others, fill_self, fill_length, if_neg (by omega)]
  by_cases others : second = some n
  · subst others
    have there := lt_grown n (v []).length
    rw [fill_self, fill_other mine, fill_self, fill_length, if_neg (by omega)]
  · have more := le_grown first (v []).length
    have still := le_grown second (v []).length
    have end_first := le_grown second (grown first (v []).length)
    have end_second := le_grown first (grown second (v []).length)
    rw [fill_other mine, fill_other others, fill_other others, fill_other mine, fill_length,
      fill_length, most]
    repeat' split
    all_goals first | rfl | omega

theorem slot_fill_self (n : Nat) (item v : View) : slot (some n) (fill (some n) item v) = item := by
  have there := lt_grown n (v []).length
  rw [slot, fill_length, if_pos there]
  funext ways
  exact fill_self n item v ways

theorem below_fill_other {n : Nat} (other : place ≠ some n) (item v : View) :
    below (.item n) (fill place item v) =
      if (v []).length ≤ n ∧ n < grown place (v []).length then only (.scalar none .null)
      else below (.item n) v := by
  funext ways
  rw [below, fill_other other]
  split <;> rfl

theorem slot_fill_of_ne {first second : Option Nat}
    (apart : ∀ n, first = some n → second ≠ some n) (item v : View) :
    slot first (fill second item v) = slot first v := by
  cases first with
  | none => rfl
  | some n =>
    have others := apart n rfl
    have more := le_grown second (v []).length
    rw [slot, slot, fill_length, below_fill_other others]
    by_cases there : n < (v []).length
    · rw [if_pos there, if_pos (by omega), if_neg (by omega)]
    · rw [if_neg there]
      repeat' split
      all_goals first | rfl | omega

-- What is set at one path is seen beside what is set at another, whichever came first.
theorem put_comm {first second : Face} {a b : List PathStep}
    (apart : PathStep.apart a b = true) (v : View) :
    put first a (put second b v) = put second b (put first a v) := by
  induction a generalizing b v with
  | nil => simp [PathStep.apart] at apart
  | cons s as ih =>
    cases b with
    | nil => simp [PathStep.apart] at apart
    | cons t bs =>
      rw [PathStep.apart] at apart
      by_cases same : s = t
      · subst same
        rw [if_pos rfl] at apart
        cases s with
        | name key => simp [put, ih apart]
        | index i =>
          simp only [put, fill_length, place?_grown, fill_fill]
          cases Tree.place? i (v []).length with
          | none => rfl
          | some n => rw [slot_fill_self, slot_fill_self, ih apart]
      · rw [if_neg same] at apart
        cases s with
        | name key =>
          cases t with
          | name other =>
            have apart : key ≠ other := by simpa [PathStep.parts] using apart
            simp only [put, below_enter_of_ne apart, below_enter_of_ne (Ne.symm apart)]
            exact enter_comm apart ..
          | index => simp [PathStep.parts] at apart
        | index i =>
          cases t with
          | name => simp [PathStep.parts] at apart
          | index j =>
            have back : (PathStep.index j).parts (.index i) = true := by
              rw [PathStep.parts_comm]
              exact apart
            obtain ⟨still, others⟩ := place?_parts apart (v []).length
            obtain ⟨still', others'⟩ := place?_parts back (v []).length
            simp only [put, fill_length, still, still', slot_fill_of_ne others,
              slot_fill_of_ne others']
            exact fill_comm others ..

theorem put_null (face : Face) (steps : List PathStep) :
    put face steps (only (.scalar none .null)) = put face steps (only .absent) := by
  cases steps with
  | nil => rfl
  | cons step rest =>
    funext ways
    cases step <;> rcases ways with _ | ⟨⟨name⟩ | n, ways⟩ <;> rfl

end View

namespace Tree

variable {key : String}

@[simp] theorem view_none : view none = View.only .absent := by
  funext ways
  cases ways <;> rfl

@[simp] theorem view_scalar (origin : Option String) (value : Scalar) :
    view (some (.scalar origin value)) = View.only (.scalar origin value) := by
  funext ways
  cases ways <;> rfl

theorem face_tableOrigin (t : Tree) : (view (some t) []).tableOrigin = t.tableOrigin := by
  cases t <;> rfl

theorem face_arrayOrigin (t : Tree) : (view (some t) []).arrayOrigin = t.arrayOrigin := by
  cases t <;> rfl

theorem face_length (t : Tree) : (view (some t) []).length = t.arrayItems.length := by
  cases t <;> rfl

theorem view_entry (key : String) (t : Tree) (ways : List Way) :
    view (some t) (.entry key :: ways) = view (Table.find key t.entries) ways := by
  cases t with
  | table => rfl
  | scalar | array => cases ways <;> rfl

theorem view_item (n : Nat) (t : Tree) (ways : List Way) :
    view (some t) (.item n :: ways) = view t.arrayItems[n]? ways := by
  cases t with
  | array => rfl
  | scalar | table => cases ways <;> rfl

theorem view_setEntry (key : String) (value t : Tree) :
    view (some (setEntry key value t)) = View.enter key (view (some value)) (view (some t)) := by
  funext ways
  rcases ways with _ | ⟨⟨name⟩ | n, ways⟩
  · rw [View.enter, face_tableOrigin]
    rfl
  · rw [view_entry, find_setEntry, View.enter, view_entry]
    split <;> rfl
  · rfl

theorem getElem?_padded (items : List Tree) (length n : Nat) :
    (padded items length)[n]? =
      if n < items.length then items[n]? else if n < length then some null else none := by
  unfold padded
  by_cases there : n < items.length
  · rw [if_pos there, List.getElem?_append_left there]
  · rw [if_neg there, List.getElem?_append_right (by omega), List.getElem?_replicate]
    split <;> split <;> first | rfl | omega

-- An array of which one item was changed; what was missing before that item is null.
theorem getElem?_changed (items : List Tree) (change : Tree → Tree) (n m : Nat) :
    ((padded items (n + 1)).modify n change)[m]? =
      if n = m then some (change (items[n]?.getD null))
      else if m < items.length then items[m]? else if m < n + 1 then some null else none := by
  rw [List.getElem?_modify, getElem?_padded]
  by_cases same : n = m
  · subst same
    by_cases there : n < items.length <;> simp [there]
  · have still : (fun item => if n = m then change item else item) = id := by
      funext item
      exact if_neg same
    rw [still, id_map, if_neg same]

theorem view_changeItem (i : Int) (change : Tree → Tree) (t : Tree) (item : View)
    (changed : ∀ n, place? i t.arrayItems.length = some n →
      view (some (change (t.arrayItems[n]?.getD null))) = item) :
    view (some (changeItem i change t)) =
      View.fill (place? i t.arrayItems.length) item (view (some t)) := by
  unfold changeItem
  cases found : place? i t.arrayItems.length with
  | none =>
    simp only [found]
    funext ways
    rcases ways with _ | ⟨⟨name⟩ | n, ways⟩
    · rw [View.fill_nil, face_arrayOrigin, face_length]
      rfl
    · rfl
    · rw [View.fill_other (by simp), face_length, if_neg (by simp only [View.grown]; omega),
        view_item, view_item]
      rfl
  | some n =>
    simp only [found]
    have length : (padded t.arrayItems (n + 1)).length = View.grown (some n) t.arrayItems.length := by
      simp only [padded, List.length_append, List.length_replicate, View.grown]
      omega
    funext ways
    rcases ways with _ | ⟨⟨name⟩ | m, ways⟩
    · rw [View.fill_nil, face_arrayOrigin, face_length, ← length]
      simp [view]
    · rfl
    · have here : ∀ items, (Tree.array t.arrayOrigin items).arrayItems = items := fun _ => rfl
      have wide : View.grown (some n) t.arrayItems.length = max t.arrayItems.length (n + 1) := rfl
      rw [view_item, here, getElem?_changed]
      by_cases same : n = m
      · subst same
        rw [if_pos rfl, View.fill_self, changed n found]
      rw [if_neg same, View.fill_other (by simpa using same), face_length, view_item, wide]
      by_cases there : m < t.arrayItems.length
      · rw [if_pos there, if_neg (by omega)]
      rw [if_neg there]
      by_cases padding : m < n + 1
      · rw [if_pos padding, if_pos (by omega), null, view_scalar]
      · rw [if_neg padding, if_neg (by omega), List.getElem?_eq_none (by omega)]

-- What is set in a value that may be missing is set in what is seen of it.
theorem put_getD (face : Face) (steps : List PathStep) (found : Option Tree) :
    View.put face steps (view (some (found.getD null))) = View.put face steps (view found) := by
  cases found with
  | none => rw [Option.getD_none, null, view_scalar, view_none, View.put_null]
  | some t => rfl

theorem view_setAt (origin : Option String) (scalar : Scalar) (steps : List PathStep) (t : Tree) :
    view (some (setAt (.scalar origin scalar) steps t)) =
      View.put (.scalar origin scalar) steps (view (some t)) := by
  induction steps generalizing t with
  | nil => rw [setAt, view_scalar, View.put]
  | cons step rest ih =>
    cases step with
    | name key =>
      have inner : View.below (.entry key) (view (some t)) = view (Table.find key t.entries) :=
        funext (view_entry key t)
      rw [setAt_scalar, view_setEntry, ih, put_getD, View.put, inner]
    | index i =>
      have set : setAt (.scalar origin scalar) (.index i :: rest) t =
          changeItem i (setAt (.scalar origin scalar) rest) t := by
        cases rest <;> rfl
      rw [set, View.put, face_length]
      refine view_changeItem i _ t _ fun n found => ?_
      rw [ih, put_getD, found, View.slot, face_length]
      have inner : View.below (.item n) (view (some t)) = view t.arrayItems[n]? :=
        funext (view_item n t)
      by_cases there : n < t.arrayItems.length
      · rw [if_pos there, inner]
      · rw [if_neg there, List.getElem?_eq_none (by omega), view_none, View.put_null]

end Tree

end Kitchen.Config
