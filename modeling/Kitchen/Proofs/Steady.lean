import Kitchen.Proofs.Sights
import Kitchen.Proofs.Trees

namespace Kitchen.Config

-- No two keys of one table are alike but for the size of their letters. Tables in arrays are left
-- out: an array is not laid over anything.
inductive Datum.Distinct : Datum → Prop where
  | scalar (value : Scalar) : Distinct (.scalar value)
  | array (items : List Datum) : Distinct (.array items)
  | table (entries : List (String × Datum))
      (once : ((Table.collect entries).map fun e => Text.lower e.1).Nodup)
      (inner : ∀ e ∈ Table.collect entries, Distinct e.2) : Distinct (.table entries)

-- Whatever the order, what is seen below the names that count is the same.
def Folder.Steady (folder : Folder) (path : Option String) : Prop :=
  ∀ entries, folder.table? path = some entries → ∀ m n,
    Alike (Tree.laySource Tree.emptyTable (fileEntries m (path.getD "") entries)).sights
      (Tree.laySource Tree.emptyTable (fileEntries n (path.getD "") entries)).sights

namespace Tree

variable {m n : Machine} {origin : Option String} {place : List String} {items others : List Tree}
  {es fs done source : Entries} {root : Tree} {key : String}

theorem view_array (length : items.length = others.length)
    (same : ∀ i : Nat, view items[i]? = view others[i]?) :
    view (some (.array origin items)) = view (some (.array origin others)) := by
  funext ways
  rcases ways with _ | ⟨⟨name⟩ | i, ways⟩
  · simp only [view, length]
  · rfl
  · exact congrFun (same i) ways

theorem view_table (same : ∀ key, view (Table.find key es) = view (Table.find key fs)) :
    view (some (.table origin es)) = view (some (.table origin fs)) := by
  funext ways
  rcases ways with _ | ⟨⟨name⟩ | i, ways⟩
  · rfl
  · exact congrFun (same name) ways
  · rfl

theorem view_find {β : Type} {base : List β} {keyOf : β → String} {f g : β → Tree}
    (first : es.Perm (base.map fun e => (keyOf e, f e)))
    (second : fs.Perm (base.map fun e => (keyOf e, g e))) (once : (base.map keyOf).Nodup)
    (same : ∀ e ∈ base, view (some (f e)) = view (some (g e))) (key : String) :
    view (Table.find key es) = view (Table.find key fs) := by
  have keys : ∀ h : β → Tree, ((base.map fun e => (keyOf e, h e)).map (·.1)).Nodup := by
    intro h
    rwa [List.map_map]
  rw [Table.find_of_perm first ((first.map (·.1)).nodup_iff.mpr (keys f)),
    Table.find_of_perm second ((second.map (·.1)).nodup_iff.mpr (keys g))]
  clear first second once keys
  induction base with
  | nil => rfl
  | cons e rest ih =>
    obtain ⟨mine, later⟩ := List.forall_mem_cons.mp same
    by_cases here : keyOf e = key
    · simp only [List.map_cons, Table.find, here, if_true, mine]
    · simp only [List.map_cons, Table.find, here, if_false, ih later]

theorem getElem?_ofItems (origin : String) (k i : Nat) (data : List Datum) :
    (ofItems m origin place k data)[i]? =
      data[i]?.map (ofDatum m origin (toString (k + i) :: place)) := by
  induction data generalizing k i with
  | nil => rfl
  | cons first rest ih =>
    cases i with
    | zero => rw [ofItems]; rfl
    | succ i =>
      rw [ofItems, List.getElem?_cons_succ, List.getElem?_cons_succ, ih, Nat.add_right_comm,
        Nat.add_assoc]

theorem length_ofItems (m : Machine) (origin : String) (place : List String) (k : Nat)
    (data : List Datum) : (ofItems m origin place k data).length = data.length := by
  induction data generalizing k with
  | nil => rfl
  | cons first rest ih => rw [ofItems, List.length_cons, List.length_cons, ih]

-- A value that was read looks the same in whatever order its tables were walked.
theorem view_ofDatum (m n : Machine) (origin : String) (place : List String) (datum : Datum) :
    view (some (ofDatum m origin place datum)) = view (some (ofDatum n origin place datum)) := by
  match datum with
  | .scalar value => rw [ofDatum, ofDatum]
  | .array items =>
    have each : ∀ item ∈ items, ∀ place, view (some (ofDatum m origin place item)) =
        view (some (ofDatum n origin place item)) := by
      intro item there place
      have small := List.sizeOf_lt_of_mem there
      exact view_ofDatum m n origin place item
    rw [ofDatum, ofDatum]
    refine view_array (by rw [length_ofItems, length_ofItems]) fun i => ?_
    rw [getElem?_ofItems, getElem?_ofItems]
    cases found : items[i]? with
    | none => rfl
    | some item => exact each item (List.mem_of_getElem? found) _
  | .table entries =>
    have each : ∀ e ∈ Table.collect entries, view (some (ofDatum m origin (e.1 :: place) e.2)) =
        view (some (ofDatum n origin (e.1 :: place) e.2)) := by
      intro e there
      have small := List.sizeOf_lt_of_mem (Table.mem_collect there)
      have smaller : sizeOf e.2 < sizeOf e := by
        obtain ⟨key, value⟩ := e
        simp only [Prod.mk.sizeOf_spec]
        omega
      exact view_ofDatum m n origin (e.1 :: place) e.2
    rw [ofDatum, ofDatum, ofEntries_collect, ofEntries_collect]
    exact view_table (view_find (Machine.walk_perm ..) (Machine.walk_perm ..)
      (Table.nodup_collect entries) each)
termination_by sizeOf datum

-- A value as it is once it was laid where nothing was.
def laid : Tree → Tree
  | .table _ entries => layEntries entries emptyTable
  | value => value

theorem layEntry_new (new : Table.find key done = none) (value : Tree) :
    layEntry key value (.table origin done) = .table origin (done ++ [(key, value.laid)]) := by
  have set : layEntry key value (.table origin done) =
      setEntry key value.laid (.table origin done) := by
    cases value with
    | scalar | array => rfl
    | table there entries =>
      have missing : Table.find key (Tree.entries (.table origin done)) = none := new
      rw [layEntry, missing]
      rfl
  rw [set, setEntry, Tree.entries, Table.put_new new]
  rfl

theorem layEntries_new (once : ((done ++ inSmall source).map (·.1)).Nodup) :
    layEntries source (.table origin done) =
      .table origin (done ++ source.map fun e => (Text.lower e.1, e.2.laid)) := by
  induction source generalizing done with
  | nil => rw [layEntries, List.map_nil, List.append_nil]
  | cons first rest ih =>
    obtain ⟨key, value⟩ := first
    have new : Table.find (Text.lower key) done = none := by
      rw [Table.find_eq_none_iff]
      intro there
      rw [List.map_append, List.nodup_append] at once
      exact once.2.2 _ there _ (by simp [inSmall]) rfl
    have later : (((done ++ [(Text.lower key, value.laid)]) ++ inSmall rest).map (·.1)).Nodup := by
      simpa [inSmall] using once
    rw [layEntries, layEntry_new new, ih later, List.append_assoc]
    rfl

theorem laid_table {there : Option String} (once : ((inSmall source).map (·.1)).Nodup) :
    (Tree.table there source).laid =
      .table none (source.map fun e => (Text.lower e.1, e.2.laid)) := by
  rw [laid, emptyTable, layEntries_new (by simpa using once), List.nil_append]

theorem view_laid (m n : Machine) (origin : String) {datum : Datum} (distinct : datum.Distinct) :
    ∀ place, view (some (ofDatum m origin place datum).laid) =
      view (some (ofDatum n origin place datum).laid) := by
  induction distinct with
  | scalar => exact fun place => view_ofDatum m n origin place _
  | array items =>
    intro place
    have same := view_ofDatum m n origin place (.array items)
    rw [ofDatum, ofDatum] at same ⊢
    exact same
  | table entries once inner ih =>
    intro place
    -- Either machine walks the entries of one map.
    have laid : ∀ m : Machine, ∃ es : Entries,
        es.Perm ((Table.collect entries).map fun e =>
          (Text.lower e.1, (ofDatum m origin (e.1 :: place) e.2).laid)) ∧
        (ofDatum m origin place (.table entries)).laid = .table none es := by
      intro m
      have perm := m.walk_perm place ((Table.collect entries).map fun e =>
        (e.1, ofDatum m origin (e.1 :: place) e.2))
      rw [ofDatum, ofEntries_collect]
      refine ⟨_, ?_, laid_table ?_⟩
      · have mapped := perm.map fun e => (Text.lower e.1, e.2.laid)
        rwa [List.map_map] at mapped
      · rw [inSmall, List.map_map, (perm.map _).nodup_iff, List.map_map]
        exact once
    obtain ⟨es, first, read⟩ := laid m
    obtain ⟨fs, second, read'⟩ := laid n
    rw [read, read']
    exact view_table (view_find first second once fun e there => ih e there (e.1 :: place))

theorem takeSteps_nil {fuel : Nat} {text : List Char} (none : Path.takeSteps fuel text = some []) :
    text = [] := by
  cases text with
  | nil => rfl
  | cons c rest =>
    cases fuel with
    | zero => cases none
    | succ fuel =>
      unfold Path.takeSteps at none
      split at none
      · cases none
      · simp at none

-- A key without steps is the name to which it leads.
theorem rootOf_of_bare (bare : stepsOf key = []) : rootOf key = key := by
  unfold rootOf
  unfold stepsOf at bare
  cases leads : Path.parse? key with
  | none => rfl
  | some path =>
    simp only [leads] at bare ⊢
    unfold Path.parse? Path.takeName at leads
    split at leads
    · cases leads
    next root rest taken =>
      split at taken
      · cases taken
      · obtain ⟨steps, stepped, rfl⟩ := Option.map_eq_some_iff.mp leads
        obtain ⟨rfl, rfl⟩ := Prod.mk.inj (Option.some.inj taken)
        have none : steps = [] := bare
        subst none
        have all := @List.takeWhile_append_dropWhile _ Path.isNameChar key.toList
        rw [takeSteps_nil stepped, List.append_nil] at all
        rw [all, String.ofList_toList]

theorem laySource_inSmall (bare : ∀ e ∈ source, stepsOf (Text.lower e.1) = []) (root : Tree) :
    laySource root (inSmall source) = layEntries source root := by
  induction source generalizing root with
  | nil => rfl
  | cons first rest ih =>
    obtain ⟨mine, others⟩ := List.forall_mem_cons.mp bare
    have set : setKey root (Text.lower first.1) first.2 =
        layEntry (Text.lower first.1) first.2 root := by
      rw [setKey, rootOf_of_bare mine, mine]
      rfl
    have step : laySource root (inSmall (first :: rest)) =
        laySource (setKey root (Text.lower first.1) first.2) (inSmall rest) := rfl
    rw [step, set, ih others]
    rfl

theorem sights_of_view {a b : Tree} (seen : view (some a) = view (some b)) :
    a.sights = b.sights := by
  funext name ways
  have below := congrFun seen (.entry name :: ways)
  rwa [view_entry, view_entry] at below

end Tree

-- A file is steady if its keys are names of their own, whatever the size of their letters.
theorem Folder.steady_of_distinct {folder : Folder} {path : Option String}
    {entries : List (String × Datum)} (said : folder.table? path = some entries)
    (distinct : (Datum.table entries).Distinct)
    (bare : ∀ e ∈ Table.collect entries, Tree.stepsOf (Text.lower e.1) = []) :
    folder.Steady path := by
  intro others same m n
  cases said.symm.trans same
  have read : ∀ m, Tree.laySource Tree.emptyTable (fileEntries m (path.getD "") entries) =
      (Tree.ofDatum m (Folder.tidy (path.getD "")) ["file"] (.table entries)).laid := by
    intro m
    rw [fileEntries, Tree.laySource_inSmall ?_, Tree.ofDatum]
    · rfl
    · intro e there
      rw [Machine.mem_walk, Tree.ofEntries_collect] at there
      obtain ⟨entry, member, rfl⟩ := List.mem_map.mp there
      exact bare entry member
  rw [read, read, Tree.sights_of_view (Tree.view_laid m n _ distinct ["file"])]
  exact .refl _

end Kitchen.Config
