import Kitchen.Proofs.Fields
import Kitchen.Proofs.Views
import Mathlib.Logic.Function.Basic

-- What is seen below each name of a root. Settings are read from what is seen below three of the
-- names; what is set elsewhere they do not know.

namespace Kitchen.Config

-- The names of the root that settings are read from.
def roots : List String := ["workers", "client_timeout_ms", "logging"]

-- What is seen below each name of a root, and whether it is the same below those that count.
abbrev Sights := String → View

def Alike (v w : Sights) : Prop := ∀ name ∈ roots, v name = w name

theorem Alike.refl (v : Sights) : Alike v v := fun _ _ => rfl

theorem Alike.symm {v w : Sights} (alike : Alike v w) : Alike w v :=
  fun name counts => (alike name counts).symm

theorem Alike.trans {u v w : Sights} (first : Alike u v) (second : Alike v w) : Alike u w :=
  fun name counts => (first name counts).trans (second name counts)

-- The key leads below one of the names that count.
def bearsKey (key : String) : Bool :=
  match Path.parse? key with
  | some path => path.root ∈ roots
  | none => false

namespace Tree

variable {a b root : Tree} {found other : Option Tree} {key : String} {m : Machine}
  {seen others : Sights} {source : Entries}

def sights (root : Tree) : Sights := fun name => view (Table.find name root.entries)

theorem cases_of_view (seen : view (some a) = view (some b)) :
    (∃ origin value, a = .scalar origin value ∧ b = .scalar origin value) ∨
      (∃ origin items others, a = .array origin items ∧ b = .array origin others ∧
        ∀ n : Nat, view items[n]? = view others[n]?) ∨
      ∃ origin entries others, a = .table origin entries ∧ b = .table origin others ∧
        ∀ name, view (Table.find name entries) = view (Table.find name others) := by
  have face := congrFun seen []
  cases a with
  | scalar =>
    cases b with
    | scalar =>
      cases face
      exact .inl ⟨_, _, rfl, rfl⟩
    | array | table => cases face
  | array _ items =>
    cases b with
    | array _ others =>
      obtain ⟨rfl, -⟩ := Face.array.inj face
      exact .inr (.inl ⟨_, items, others, rfl, rfl,
        fun n => funext fun ways => congrFun seen (.item n :: ways)⟩)
    | scalar | table => cases face
  | table _ entries =>
    cases b with
    | table _ others =>
      obtain rfl := Face.table.inj face
      exact .inr (.inr ⟨_, entries, others, rfl, rfl,
        fun name => funext fun ways => congrFun seen (.entry name :: ways)⟩)
    | scalar | array => cases face

theorem change_of_view {α σ : Type} {decode : Tree → Except Mismatch α} {set : α → σ → σ}
    (reads : ∀ a b, view (some a) = view (some b) → decode a = decode b)
    (seen : view found = view other) : change decode set found = change decode set other := by
  cases found with
  | none =>
    cases other with
    | none => rfl
    | some b => cases b <;> cases congrFun seen []
  | some a =>
    cases other with
    | none => cases a <;> cases congrFun seen []
    | some b => rw [change, change, reads a b seen]

-- What does not look into arrays and tables is the same for values that look the same.
theorem eq_of_view {β : Type} {read : Tree → β}
    (array : ∀ origin items others, read (.array origin items) = read (.array origin others))
    (table : ∀ origin entries others, read (.table origin entries) = read (.table origin others))
    (seen : view (some a) = view (some b)) : read a = read b := by
  rcases cases_of_view seen with ⟨_, _, rfl, rfl⟩ | ⟨_, items, others, rfl, rfl, -⟩ |
    ⟨_, entries, others, rfl, rfl, -⟩
  · rfl
  · exact array _ items others
  · exact table _ entries others

theorem toWord_of_view (key : String) (a b : Tree) (seen : view (some a) = view (some b)) :
    toWord key a = toWord key b :=
  eq_of_view (fun _ _ _ => rfl) (fun _ _ _ => rfl) seen

theorem toBool_of_view (key : String) (a b : Tree) (seen : view (some a) = view (some b)) :
    toBool key a = toBool key b :=
  eq_of_view (fun _ _ _ => rfl) (fun _ _ _ => rfl) seen

theorem toText_of_view (key : String) (a b : Tree) (seen : view (some a) = view (some b)) :
    toText key a = toText key b :=
  eq_of_view (fun _ _ _ => rfl) (fun _ _ _ => rfl) seen

theorem logChanges_of_view (level json : String) {first second first' second' : Option Tree}
    (alike : view first = view first') (alike' : view second = view second') :
    logChanges level json first second = logChanges level json first' second' := by
  simp only [logChanges, change_of_view (toText_of_view level) alike,
    change_of_view (toBool_of_view json) alike']

theorem toLogSettings_of_view (m : Machine) (a b : Tree) (seen : view (some a) = view (some b)) :
    toLogSettings m a = toLogSettings m b := by
  rcases cases_of_view seen with ⟨_, _, rfl, rfl⟩ | ⟨_, items, others, rfl, rfl, item⟩ |
    ⟨_, entries, others, rfl, rfl, entry⟩
  · rfl
  · rw [toLogSettings, toLogSettings, logChanges_of_view _ _ (item 0) (item 1)]
  · rw [toLogSettings, toLogSettings, logChanges_of_view _ _ (entry "level") (entry "json")]

theorem toSettings_alike (m : Machine) (alike : Alike a.sights b.sights) :
    a.toSettings m = b.toSettings m := by
  have workers : view (Table.find "workers" a.entries) = view (Table.find "workers" b.entries) :=
    alike "workers" (by decide)
  have timeout : view (Table.find "client_timeout_ms" a.entries) =
      view (Table.find "client_timeout_ms" b.entries) := alike "client_timeout_ms" (by decide)
  have logging : view (Table.find "logging" a.entries) = view (Table.find "logging" b.entries) :=
    alike "logging" (by decide)
  rw [toSettings, toSettings, changes, changes, change_of_view (toWord_of_view _) workers,
    change_of_view (toWord_of_view _) timeout, change_of_view (toLogSettings_of_view m) logging]

def lay (face : Face) (key : String) (seen : Sights) : Sights :=
  Function.update seen (rootOf key) (View.put face (stepsOf key) (seen (rootOf key)))

theorem sights_setKey (root : Tree) (key : String) (origin : Option String) (scalar : Scalar) :
    (setKey root key (.scalar origin scalar)).sights =
      lay (.scalar origin scalar) key root.sights := by
  funext name
  rw [setKey, setAt_scalar, sights, find_setEntry, lay]
  by_cases same : rootOf key = name
  · subst same
    rw [if_pos rfl, Function.update_self, view_setAt, put_getD]
    rfl
  · rw [if_neg same, Function.update_of_ne (Ne.symm same)]
    rfl

def layFace (seen : Sights) (e : String × Tree) : Sights := lay (view (some e.2) []) e.1 seen

theorem sights_laySource (scalars : ∀ e ∈ source, ∃ origin scalar, e.2 = .scalar origin scalar)
    (root : Tree) : (laySource root source).sights = source.foldl layFace root.sights := by
  induction source generalizing root with
  | nil => rfl
  | cons first rest ih =>
    obtain ⟨⟨origin, scalar, same⟩, others⟩ := List.forall_mem_cons.mp scalars
    obtain ⟨key, value⟩ := first
    cases same
    rw [List.foldl_cons]
    exact (ih others _).trans (by rw [sights_setKey]; rfl)

theorem layFace_alike (alike : Alike seen others) (e : String × Tree) :
    Alike (layFace seen e) (layFace others e) := by
  intro name counts
  by_cases same : name = rootOf e.1
  · subst same
    simp [layFace, lay, alike _ counts]
  · simp [layFace, lay, same, alike _ counts]

theorem layFace_aside {e : String × Tree} (aside : bearsKey e.1 = false) (seen : Sights) :
    Alike (layFace seen e) seen := by
  have elsewhere : rootOf e.1 ∉ roots := by
    unfold rootOf
    unfold bearsKey at aside
    cases leads : Path.parse? e.1 with
    | some path => simpa [leads] using aside
    | none =>
      intro counts
      have parses : ∀ name ∈ roots, (Path.parse? name).isSome = true := by decide
      have known := parses e.1 counts
      rw [leads] at known
      cases known
  intro name counts
  have apart : name ≠ rootOf e.1 := by
    rintro rfl
    exact elsewhere counts
  simp [layFace, lay, apart]

theorem foldl_layFace_alike (alike : Alike seen others) (source : Entries) :
    Alike (source.foldl layFace seen) (source.foldl layFace others) := by
  induction source generalizing seen others with
  | nil => exact alike
  | cons first rest ih => exact ih (layFace_alike alike first)

-- Only the entries that bear on the settings count.
theorem foldl_layFace_filter (source : Entries) (seen : Sights) :
    Alike (source.foldl layFace seen)
      ((source.filter fun e => bearsKey e.1).foldl layFace seen) := by
  induction source generalizing seen with
  | nil => exact .refl _
  | cons first rest ih =>
    rw [List.foldl_cons, List.filter_cons]
    cases counts : bearsKey first.1 with
    | true => exact ih _
    | false => exact (foldl_layFace_alike (layFace_aside counts seen) rest).trans (ih seen)

end Tree

-- Two paths that do not meet in one place, nor in the way they use one.
def Path.apart (a b : Path) : Bool := a.root ≠ b.root || PathStep.apart a.steps b.steps

theorem Tree.layFace_comm {a b : String × Tree} {p q : Path} (leadsA : Path.parse? a.1 = some p)
    (leadsB : Path.parse? b.1 = some q) (apart : p.apart q = true) (seen : Sights) :
    layFace (layFace seen a) b = layFace (layFace seen b) a := by
  simp only [layFace, lay, rootOf_of_path leadsA, rootOf_of_path leadsB, stepsOf_of_path leadsA,
    stepsOf_of_path leadsB]
  by_cases same : p.root = q.root
  · have parted : PathStep.apart p.steps q.steps = true := by simpa [Path.apart, same] using apart
    simp only [same, Function.update_self, Function.update_idem, View.put_comm parted]
  · rw [Function.update_of_ne same, Function.update_of_ne (Ne.symm same), Function.update_comm same]

end Kitchen.Config
