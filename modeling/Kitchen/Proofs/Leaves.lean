import Kitchen.Proofs.Trees
import Mathlib.Logic.Function.Basic

-- The four leaves of the settings, and what a tree holds of them after sources were laid over it.

namespace Kitchen

namespace Config

inductive Leaf where
  | workers
  | timeout
  | level
  | json
deriving DecidableEq, Repr

namespace Leaf

def path : Leaf → Path
  | .workers => ⟨"workers", []⟩
  | .timeout => ⟨"client_timeout_ms", []⟩
  | .level => ⟨"logging", [.name "level"]⟩
  | .json => ⟨"logging", [.name "json"]⟩

def logging : Path := ⟨"logging", []⟩

def ofPath? (path : Path) : Option Leaf :=
  [workers, timeout, level, json].find? (·.path = path)

def within? (name : String) : Option Leaf := ofPath? ⟨"logging", [.name name]⟩

-- The leaves among the entries of the table `logging`.
def inside {α : Type} (entries : List (String × α)) : List (Leaf × α) :=
  entries.filterMap fun entry => (within? entry.1).map (·, entry.2)

end Leaf

-- The path neither leads to a leaf nor past one: it leads to another name, or to another entry of
-- `logging`.
def Path.aside (path : Path) : Bool :=
  if path.root = "workers" || path.root = "client_timeout_ms" then false
  else if path.root = "logging" then
    match path.steps with
    | .name name :: _ => (Leaf.within? name).isNone
    | _ => false
  else true

variable {root under value : Tree} {key name : String} {path : Path} {leaf : Leaf}
  {origin : Option String} {scalar : Scalar}

namespace Leaf

theorem ofPath?_iff : ofPath? path = some leaf ↔ path = leaf.path := by
  constructor
  · intro found
    unfold ofPath? at found
    have same := List.find?_some found
    exact (of_decide_eq_true same).symm
  · rintro rfl
    cases leaf <;> decide

theorem ofPath?_path (leaf : Leaf) : ofPath? leaf.path = some leaf := ofPath?_iff.mpr rfl

theorem path_ne_logging (leaf : Leaf) : leaf.path ≠ logging := by
  cases leaf <;> decide

theorem of_aside (aside : path.aside = true) : path ≠ logging ∧ ofPath? path = none := by
  refine ⟨?_, ?_⟩
  · rintro rfl
    exact absurd aside (by decide)
  · rw [Option.eq_none_iff_forall_ne_some]
    intro leaf found
    rw [ofPath?_iff] at found
    subst found
    cases leaf <;> exact absurd aside (by decide)

theorem within?_iff : within? name = some leaf ↔
    leaf = .level ∧ name = "level" ∨ leaf = .json ∧ name = "json" := by
  rw [within?, ofPath?_iff]
  cases leaf <;> simp [Leaf.path]

end Leaf

-- What a tree holds of the leaves.

namespace Tree

def held (root : Tree) : Leaf → Option Tree
  | .workers => Table.find "workers" root.entries
  | .timeout => Table.find "client_timeout_ms" root.entries
  | .level => (Table.find "logging" root.entries).bind fun t => Table.find "level" t.entries
  | .json => (Table.find "logging" root.entries).bind fun t => Table.find "json" t.entries

-- What is under `logging`, if anything is, is a table.
def Lodged (root : Tree) : Prop :=
  ∀ t, Table.find "logging" root.entries = some t → ∃ origin entries, t = .table origin entries

end Tree

-- Leaves that are set one after another.
def told (known : Leaf → Option Tree) (leaves : List (Leaf × Tree)) : Leaf → Option Tree :=
  leaves.foldl (fun known entry => Function.update known entry.1 (some entry.2)) known

-- Of leaves that are set once each, the order does not matter.
theorem told_eq {leaves : List (Leaf × Tree)} (once : (leaves.map (·.1)).Nodup)
    (known : Leaf → Option Tree) (leaf : Leaf) :
    told known leaves leaf = (Table.find leaf leaves).or (known leaf) := by
  induction leaves generalizing known with
  | nil => rfl
  | cons first rest ih =>
    obtain ⟨new, others⟩ := List.nodup_cons.mp once
    have step : told known (first :: rest) =
        told (Function.update known first.1 (some first.2)) rest := rfl
    rw [step, ih others]
    by_cases same : first.1 = leaf
    · subst same
      have missing : Table.find first.1 rest = none := by
        rw [Table.find_eq_none_iff]
        exact new
      simp [Table.find, missing]
    · simp [Table.find, same, Function.update_of_ne (Ne.symm same)]

namespace Tree

-- The leaves that an entry of a source sets.
def leavesAt (entry : String × Tree) : List (Leaf × Tree) :=
  match Path.parse? entry.1 with
  | none => []
  | some path =>
    if path = Leaf.logging then Leaf.inside (inSmall entry.2.entries)
    else ((Leaf.ofPath? path).map (·, entry.2)).toList

def leaves (source : Entries) : List (Leaf × Tree) := source.flatMap leavesAt

-- The table `logging` with what is now under its names.
def heldWithin (t : Tree) (known : Leaf → Option Tree) : Leaf → Option Tree
  | .level => Table.find "level" t.entries
  | .json => Table.find "json" t.entries
  | leaf => known leaf

theorem held_setEntry_logging (t : Tree) :
    held (setEntry "logging" t root) = heldWithin t (held root) := by
  funext leaf
  cases leaf <;> simp [held, heldWithin]

theorem heldWithin_setEntry (known : Leaf → Option Tree) (name : String) (value t : Tree) :
    heldWithin (setEntry name value t) known =
      match Leaf.within? name with
      | some leaf => Function.update (heldWithin t known) leaf (some value)
      | none => heldWithin t known := by
  cases found : Leaf.within? name with
  | some leaf =>
    rcases Leaf.within?_iff.mp found with ⟨rfl, rfl⟩ | ⟨rfl, rfl⟩
    · funext other
      cases other <;> simp [heldWithin]
    · funext other
      cases other <;> simp [heldWithin]
  | none =>
    have level : name ≠ "level" := by
      rintro rfl
      cases found
    have json : name ≠ "json" := by
      rintro rfl
      cases found
    funext other
    cases other <;> simp [heldWithin, level, json]

-- The entries of the table `logging` hold scalars under the names of leaves.
def Flat (inner : Entries) : Prop :=
  ∀ entry ∈ inSmall inner, (Leaf.within? entry.1).isSome = true →
    ∃ origin scalar, entry.2 = .scalar origin scalar

-- The entry is one of those with which a layer sets leaves, or none of the leaves' business.
inductive Proper : String × Tree → Prop where
  | stray (entry : String × Tree) (none : Path.parse? entry.1 = none) : Proper entry
  | aside (entry : String × Tree) (path : Path) (leads : Path.parse? entry.1 = some path)
      (aside : path.aside = true) : Proper entry
  | leaf (key : String) (leaf : Leaf) (origin : Option String) (scalar : Scalar)
      (leads : Path.parse? key = some leaf.path) : Proper (key, .scalar origin scalar)
  | logging (key : String) (origin : Option String) (inner : Entries)
      (leads : Path.parse? key = some Leaf.logging)
      (flat : Flat inner) : Proper (key, .table origin inner)

theorem lodged_setEntry (lodged : root.Lodged) (apart : key ≠ "logging") (value : Tree) :
    (setEntry key value root).Lodged := by
  intro t found
  rw [find_setEntry, if_neg apart] at found
  exact lodged t found

theorem setEntry_table (key : String) (value under : Tree) :
    ∃ origin entries, setEntry key value under = .table origin entries := ⟨_, _, rfl⟩

theorem lodged_setEntry_table {t : Tree} (table : ∃ origin entries, t = .table origin entries) :
    (setEntry "logging" t root).Lodged := by
  intro t found
  rw [find_setEntry, if_pos rfl] at found
  cases found
  exact table

theorem held_setEntry_other (workers : key ≠ "workers") (timeout : key ≠ "client_timeout_ms")
    (logging : key ≠ "logging") (value : Tree) : held (setEntry key value root) = held root := by
  funext leaf
  cases leaf <;> simp [held, workers, timeout, logging]

theorem held_eq_heldWithin (root : Tree) :
    heldWithin ((Table.find "logging" root.entries).getD null) (held root) = held root := by
  have nothing : null.entries = [] := rfl
  funext leaf
  cases found : Table.find "logging" root.entries <;> cases leaf <;>
    simp [held, heldWithin, found, nothing, Table.find]

theorem heldWithin_layEntries (known : Leaf → Option Tree) (inner : Entries) (t : Tree)
    (flat : Flat inner) : heldWithin (layEntries inner t) known =
      told (heldWithin t known) (Leaf.inside (inSmall inner)) := by
  induction inner generalizing t with
  | nil => rfl
  | cons first rest ih =>
    obtain ⟨spelled, value⟩ := first
    let name := Text.lower spelled
    have small : inSmall ((spelled, value) :: rest) = (name, value) :: inSmall rest := rfl
    rw [Flat, small] at flat
    obtain ⟨mine, others⟩ := List.forall_mem_cons.mp flat
    have split : layEntries ((spelled, value) :: rest) t =
        layEntries rest (layEntry name value t) := rfl
    obtain ⟨entry, same⟩ := setAt_name value name [] t
    rw [split, small, ih _ others]
    cases found : Leaf.within? name with
    | some leaf =>
      obtain ⟨origin, scalar, same⟩ := mine (by simp [found])
      cases same
      have plain : layEntry name (.scalar origin scalar) t =
          setEntry name (.scalar origin scalar) t := rfl
      rw [plain, heldWithin_setEntry, found]
      simp [found, told, Leaf.inside]
    | none =>
      have set : layEntry name value t = setEntry name entry t := same
      rw [set, heldWithin_setEntry, found]
      simp [found, Leaf.inside]

theorem layEntries_table (inner : Entries) (t : Tree) :
    (∃ origin entries, t = .table origin entries) →
      ∃ origin entries, layEntries inner t = .table origin entries := by
  induction inner generalizing t with
  | nil => exact id
  | cons first rest ih =>
    intro _
    obtain ⟨entry, same⟩ := setAt_name first.2 (Text.lower first.1) [] t
    exact ih _ ⟨_, _, same⟩

-- What is set at a path that leads aside changes no leaf.
theorem held_aside (lodged : root.Lodged) (aside : path.aside = true) (value : Tree) :
    held (setAt value (.name path.root :: path.steps) root) = held root ∧
      (setAt value (.name path.root :: path.steps) root).Lodged := by
  obtain ⟨first, steps⟩ := path
  unfold Path.aside at aside
  simp only at aside ⊢
  split at aside
  · cases aside
  next others =>
    simp only [Bool.or_eq_true, decide_eq_true_eq, not_or] at others
    split at aside
    next logging =>
      subst logging
      split at aside
      next name rest =>
        have below : setAt value (.name "logging" :: .name name :: rest) root =
            setEntry "logging" (setAt value (.name name :: rest)
              ((Table.find "logging" root.entries).getD null)) root := rfl
        obtain ⟨entry, same⟩ :=
          setAt_name value name rest ((Table.find "logging" root.entries).getD null)
        rw [below, same]
        refine ⟨?_, lodged_setEntry_table (setEntry_table ..)⟩
        rw [held_setEntry_logging, heldWithin_setEntry, Option.isNone_iff_eq_none.mp aside]
        exact held_eq_heldWithin root
      · cases aside
    next logging =>
      obtain ⟨entry, same⟩ := setAt_name value first steps root
      rw [same]
      exact ⟨held_setEntry_other others.1 others.2 logging entry,
        lodged_setEntry lodged logging entry⟩

theorem held_leaf (lodged : root.Lodged) (leaf : Leaf) (origin : Option String) (scalar : Scalar) :
    held (setAt (.scalar origin scalar) (.name leaf.path.root :: leaf.path.steps) root) =
        Function.update (held root) leaf (some (.scalar origin scalar)) ∧
      (setAt (.scalar origin scalar) (.name leaf.path.root :: leaf.path.steps) root).Lodged := by
  cases leaf with
  | workers | timeout =>
    refine ⟨?_, lodged_setEntry lodged (by decide) _⟩
    funext other
    cases other <;> simp [Leaf.path, setAt_scalar, setAt, held]
  | level | json =>
    refine ⟨?_, lodged_setEntry_table (setEntry_table ..)⟩
    rw [Leaf.path, setAt_scalar, setAt_scalar, held_setEntry_logging, heldWithin_setEntry,
      held_eq_heldWithin]
    rfl

theorem held_logging (origin : Option String) (inner : Entries) (flat : Flat inner)
    (lodged : root.Lodged) :
    held (layEntry "logging" (.table origin inner) root) =
        told (held root) (Leaf.inside (inSmall inner)) ∧
      (layEntry "logging" (.table origin inner) root).Lodged := by
  have below : layEntry "logging" (.table origin inner) root = setEntry "logging"
      (layEntries inner ((Table.find "logging" root.entries).getD emptyTable)) root := rfl
  have start : heldWithin ((Table.find "logging" root.entries).getD emptyTable) (held root) =
      held root := by
    have same := held_eq_heldWithin root
    cases found : Table.find "logging" root.entries with
    | none =>
      rw [found] at same
      exact same
    | some t =>
      rw [found] at same
      exact same
  refine ⟨?_, ?_⟩
  · rw [below, held_setEntry_logging, heldWithin_layEntries _ _ _ flat, start]
  · have table : ∃ origin entries, (Table.find "logging" root.entries).getD emptyTable =
        .table origin entries := by
      cases found : Table.find "logging" root.entries with
      | none => exact ⟨_, _, rfl⟩
      | some t => exact lodged t found
    obtain ⟨there, entries, same⟩ := layEntries_table inner _ table
    rw [below]
    exact lodged_setEntry_table ⟨there, entries, same⟩

theorem held_setKey (lodged : root.Lodged) {entry : String × Tree} (proper : Proper entry) :
    held (setKey root entry.1 entry.2) = told (held root) (leavesAt entry) ∧
      (setKey root entry.1 entry.2).Lodged := by
  cases proper with
  | stray _ none =>
    have nowhere : leavesAt entry = [] := by simp [leavesAt, none]
    have other : ∀ name path, Path.parse? name = some path → entry.1 ≠ name := by
      rintro name path leads rfl
      rw [none] at leads
      cases leads
    obtain ⟨inner, same⟩ := setAt_name entry.2 (rootOf entry.1) (stepsOf entry.1) root
    have key : rootOf entry.1 = entry.1 := by simp [rootOf, none]
    rw [nowhere, setKey, same, key]
    have logging : entry.1 ≠ "logging" := other "logging" Leaf.logging rfl
    exact ⟨held_setEntry_other (other "workers" Leaf.workers.path rfl)
      (other "client_timeout_ms" Leaf.timeout.path rfl) logging inner,
      lodged_setEntry lodged logging inner⟩
  | aside _ path leads aside =>
    have nowhere : leavesAt entry = [] := by
      simp [leavesAt, leads, (Leaf.of_aside aside).1, (Leaf.of_aside aside).2]
    rw [nowhere, setKey_of_path leads]
    exact held_aside lodged aside entry.2
  | leaf key leaf origin scalar leads =>
    have mine : leavesAt (key, .scalar origin scalar) = [(leaf, .scalar origin scalar)] := by
      simp [leavesAt, leads, Leaf.path_ne_logging leaf, Leaf.ofPath?_path leaf]
    rw [mine, setKey_of_path leads]
    exact held_leaf lodged leaf origin scalar
  | logging key origin inner leads flat =>
    have mine : leavesAt (key, .table origin inner) = Leaf.inside (inSmall inner) := by
      simp [leavesAt, leads, entries]
    rw [mine, setKey_of_path leads]
    exact held_logging origin inner flat lodged

theorem held_laySource {source : Entries} (lodged : root.Lodged)
    (proper : ∀ entry ∈ source, Proper entry) :
    held (laySource root source) = told (held root) (leaves source) ∧
      (laySource root source).Lodged := by
  induction source generalizing root with
  | nil => exact ⟨rfl, lodged⟩
  | cons first rest ih =>
    obtain ⟨mine, others⟩ := List.forall_mem_cons.mp proper
    obtain ⟨set, kept⟩ := held_setKey lodged mine
    obtain ⟨all, still⟩ := ih kept others
    refine ⟨?_, still⟩
    rw [leaves, List.flatMap_cons, told, List.foldl_append]
    exact all.trans (by rw [set]; rfl)

end Tree

end Config

end Kitchen
