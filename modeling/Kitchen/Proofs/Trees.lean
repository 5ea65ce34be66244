import Kitchen.Config.Loading
import Kitchen.Proofs.Walks

namespace Kitchen.Config

namespace Tree

variable {root under value : Tree} {key name : String} {steps : List PathStep}
  {machine : Machine} {origin : String} {place : List String} {entries : List (String × Datum)}

@[simp] theorem find_setEntry (key name : String) (value under : Tree) :
    Table.find name (setEntry key value under).entries =
      if key = name then some value else Table.find name under.entries :=
  Table.find_put name key value under.entries

-- Whatever is set below a name becomes the entry of that name.
theorem setAt_name (value : Tree) (name : String) (steps : List PathStep) (under : Tree) :
    ∃ entry, setAt value (.name name :: steps) under = setEntry name entry under := by
  cases steps with
  | nil =>
    cases value with
    | scalar | array => exact ⟨_, rfl⟩
    | table => exact ⟨_, rfl⟩
  | cons => exact ⟨_, rfl⟩

theorem setAt_scalar (origin : Option String) (scalar : Scalar) (name : String)
    (steps : List PathStep) (under : Tree) :
    setAt (.scalar origin scalar) (.name name :: steps) under =
      setEntry name
        (setAt (.scalar origin scalar) steps ((Table.find name under.entries).getD null)) under := by
  cases steps <;> rfl

theorem rootOf_of_path {path : Path} (leads : Path.parse? key = some path) :
    rootOf key = path.root := by rw [rootOf, leads]

theorem stepsOf_of_path {path : Path} (leads : Path.parse? key = some path) :
    stepsOf key = path.steps := by rw [stepsOf, leads]

theorem setKey_of_path {path : Path} (leads : Path.parse? key = some path) (root value : Tree) :
    setKey root key value = setAt value (.name path.root :: path.steps) root := by
  rw [setKey, rootOf_of_path leads, stepsOf_of_path leads]

theorem ofEntries_eq (done : Entries) : ofEntries machine origin place done entries =
    entries.foldl (fun done e =>
      Table.put e.1 (ofDatum machine origin (e.1 :: place) e.2) done) done := by
  induction entries generalizing done with
  | nil => rfl
  | cons first rest ih =>
    rw [ofEntries, ih]
    rfl

theorem ofEntries_collect : ofEntries machine origin place [] entries =
    (Table.collect entries).map fun e => (e.1, ofDatum machine origin (e.1 :: place) e.2) := by
  rw [ofEntries_eq]
  induction entries using List.reverseRecOn with
  | nil => rfl
  | append_singleton before entry ih =>
    rw [List.foldl_append, ih, Table.collect_concat]
    exact (Table.put_map (fun key value => ofDatum machine origin (key :: place) value) entry.1
      entry.2 (Table.collect before)).symm

-- Every step into an array is counted from its start, and no farther than an array can be made.
def Near (room : Nat) (key : String) : Prop :=
  ∀ i : Int, .index i ∈ stepsOf key → 0 ≤ i ∧ i < room

theorem reaches_of_near {room : Nat} (near : ∀ i : Int, .index i ∈ steps → 0 ≤ i ∧ i < room)
    (under : Tree) : reaches room steps under = true := by
  induction steps generalizing under with
  | nil => rfl
  | cons step rest ih =>
    have later := ih fun i there => near i (List.mem_cons_of_mem _ there)
    cases step with
    | name key => exact later _
    | index i =>
      obtain ⟨low, high⟩ := near i List.mem_cons_self
      obtain ⟨n, rfl⟩ := Int.eq_ofNat_of_zero_le low
      have fits : n < room := Int.ofNat_lt.mp high
      have there : place? (n : Int) under.arrayItems.length = some n := rfl
      simp [reaches, there, fits, later]

theorem safe_of_near {room : Nat} {source : Entries}
    (near : ∀ entry ∈ source, Near room entry.1) (root : Tree) : safe room root source = true := by
  induction source generalizing root with
  | nil => rfl
  | cons first rest ih =>
    obtain ⟨mine, others⟩ := List.forall_mem_cons.mp near
    rw [safe, ih others, Bool.and_true]
    have reached : reaches room (stepsOf first.1)
        ((Table.find (rootOf first.1) root.entries).getD null) = true := reaches_of_near mine _
    exact reached

end Tree

-- The path that the name of a variable is, if it counts and is one.
def Variables.path? (name : String) : Option Path := (key? name).bind Path.parse?

-- What a file says: the entries of its table; without a file, nothing.
def Folder.table? (folder : Folder) : Option String → Option (List (String × Datum))
  | none => some []
  | some path =>
    (folder.read? path).bind fun text =>
      ((Format.ofPath? path).bind (·.read? text)).bind Datum.entries?

variable {machine : Machine} {path : String} {entries : List (String × Datum)} {vars : Variables}
  {e : String × Tree}

theorem fileEntries_eq : fileEntries machine path entries =
    inSmall (machine.walk ["file"] ((Table.collect entries).map fun e =>
      (e.1, Tree.ofDatum machine (Folder.tidy path) [e.1, "file"] e.2))) := by
  rw [fileEntries, Tree.ofEntries_collect]

theorem mem_fileEntries (there : e ∈ fileEntries machine path entries) :
    ∃ entry ∈ Table.collect entries, e =
      (Text.lower entry.1, Tree.ofDatum machine (Folder.tidy path) [entry.1, "file"] entry.2) := by
  rw [fileEntries_eq] at there
  obtain ⟨spelled, walked, rfl⟩ := List.mem_map.mp there
  obtain ⟨entry, member, rfl⟩ := List.mem_map.mp (Machine.mem_walk.mp walked)
  exact ⟨entry, member, rfl⟩

theorem Variables.mem_source (there : e ∈ vars.source machine) :
    ∃ var ∈ vars, entry? var = some e := by
  obtain ⟨var, member, keyed⟩ :=
    List.mem_filterMap.mp (Table.mem_collect (Machine.mem_walk.mp there))
  exact ⟨var, Machine.mem_walk.mp member, keyed⟩

-- No key of a file or of variables leads out of reach.
structure Within (room : Nat) (entries : List (String × Datum)) (vars : Variables) : Prop where
  file : ∀ entry ∈ entries, Tree.Near room (Text.lower entry.1)
  env : ∀ var ∈ vars, ∀ key, Variables.key? var.1 = some key → Tree.Near room key

theorem Within.safe (within : Within machine.room entries vars) :
    Tree.safe machine.room Tree.emptyTable
      [fileEntries machine path entries, vars.source machine].flatten = true := by
  refine Tree.safe_of_near (fun e there => ?_) _
  rw [List.flatten_cons, List.flatten_singleton, List.mem_append] at there
  rcases there with said | set
  · obtain ⟨entry, member, rfl⟩ := mem_fileEntries said
    exact within.file entry (Table.mem_collect member)
  · obtain ⟨var, member, keyed⟩ := Variables.mem_source set
    obtain ⟨key, found, rfl⟩ := Option.map_eq_some_iff.mp keyed
    exact within.env var member key found

theorem decoded_eq {root : Tree} {s : Settings} (read : root.toSettings machine = .ok s) :
    decoded machine root = s.validate.map fun _ => s := by
  rw [decoded, read]

namespace Place

variable {p : Place} {path : Option String} {vars : Option Variables} {folder : Folder}

theorem pathSource_eq (said : folder.table? path = some entries) :
    pathSource machine folder path = .ok (fileEntries machine (path.getD "") entries) := by
  cases path with
  | none =>
    cases said
    rw [fileEntries_eq]
    exact congrArg (Except.ok <| inSmall ·) Machine.walk_nil.symm
  | some path =>
    obtain ⟨text, read, understood⟩ := Option.bind_eq_some_iff.mp said
    simp only [pathSource, fileSource, read, understood]
    rfl

-- Without a table in its file a loading comes to nothing, whatever the machine.
theorem pathSource_error (silent : folder.table? path = none) : ∃ error, ∀ machine,
    pathSource machine folder path = .error error := by
  cases path with
  | none => cases silent
  | some path =>
    cases read : folder.read? path with
    | none => exact ⟨.source path notReadable, fun _ => by simp only [pathSource, fileSource, read]⟩
    | some text =>
      have unknown : ((Format.ofPath? path).bind (·.read? text)).bind Datum.entries? = none := by
        simpa [Folder.table?, read] using silent
      exact ⟨.source path notUnderstood,
        fun _ => by simp only [pathSource, fileSource, read, unknown]⟩

theorem layered_eq (said : p.folder.table? path = some entries) : p.layered machine path vars =
    (settle machine [fileEntries machine (path.getD "") entries,
        (vars.getD p.vars).source machine]).map fun settled =>
      settled.map fun settings => ⟨settings, p.vars.environmentName, path⟩ := by
  unfold layered
  rw [pathSource_eq said]

-- A loading that reaches all its keys comes to an end.
theorem layered_within (said : p.folder.table? path = some entries)
    (within : Within machine.room entries (vars.getD p.vars)) : p.layered machine path vars =
      some ((decoded machine (merged [fileEntries machine (path.getD "") entries,
        (vars.getD p.vars).source machine])).map
          fun settings => ⟨settings, p.vars.environmentName, path⟩) := by
  rw [layered_eq said, settle, if_pos within.safe]
  rfl

theorem layered_some {outcome : Except ConfigError Loaded}
    (said : p.folder.table? path = some entries) (came : p.layered machine path vars = some outcome) : outcome =
      (decoded machine (merged [fileEntries machine (path.getD "") entries,
        (vars.getD p.vars).source machine])).map
          fun settings => ⟨settings, p.vars.environmentName, path⟩ := by
  rw [layered_eq said, settle] at came
  split at came
  · exact (Option.some.inj came).symm
  · cases came

end Place

end Kitchen.Config
