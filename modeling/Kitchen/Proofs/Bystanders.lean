import Kitchen.Proofs.Layers
import Kitchen.Proofs.Steady
import Mathlib.Data.List.Nodup

namespace Kitchen.Config

theorem PathStep.apart_self (steps : List PathStep) : apart steps steps = false := by
  induction steps with
  | nil => rfl
  | cons step rest ih => rw [apart, if_pos rfl, ih]

namespace Variables

open Kitchen.Config.Tree (layFace laySource)

variable {m n : Machine} {v w vars : Variables} {a b : String × String} {first second root : Tree}

-- The name leads below one of those that settings are read from.
def bears (name : String) : Bool :=
  match path? name with
  | some path => path.root ∈ roots
  | none => false

-- Both names bear on the settings, and the one gets in the way of the other.
def clash (a b : String) : Bool :=
  match path? a, path? b with
  | some p, some q => p.root ∈ roots && q.root ∈ roots && !p.apart q
  | _, _ => false

def Apart (vars : Variables) : Prop := ∀ a ∈ vars, ∀ b ∈ vars, a.1 ≠ b.1 → clash a.1 b.1 = false

instance (vars : Variables) : Decidable vars.Apart :=
  inferInstanceAs (Decidable (∀ a ∈ vars, ∀ b ∈ vars, a.1 ≠ b.1 → clash a.1 b.1 = false))

def bearing (vars : Variables) : Variables := vars.filter fun var => bears var.1

theorem nodup_bearing (once : (vars.map (·.1)).Nodup) : (vars.bearing.map (·.1)).Nodup :=
  once.sublist (List.filter_sublist.map _)

-- The variables that count are the same in both.
theorem perm_of_agree (onceV : (v.map (·.1)).Nodup) (onceW : (w.map (·.1)).Nodup)
    (agree : ∀ name, bears name = true → v.get? name = w.get? name) :
    v.bearing.Perm w.bearing := by
  have half : ∀ {v w : Variables}, (v.map (·.1)).Nodup →
      (∀ name, bears name = true → v.get? name = w.get? name) →
        ∀ var ∈ v.bearing, var ∈ w.bearing := by
    intro v w once agree var there
    obtain ⟨there, counts⟩ := List.mem_filter.mp there
    have found : w.get? var.1 = some var.2 :=
      (agree var.1 counts).symm.trans (Table.find_of_mem once there)
    exact List.mem_filter.mpr ⟨Table.mem_of_find found, counts⟩
  refine (List.perm_ext_iff_of_nodup (onceV.of_map.filter _) (onceW.of_map.filter _)).mpr ?_
  exact fun var => ⟨half onceV agree var,
    half onceW (fun name counts => (agree name counts).symm) var⟩

theorem scalars_source (m : Machine) (vars : Variables) :
    ∀ e ∈ vars.source m, ∃ origin scalar, e.2 = .scalar origin scalar := by
  intro e there
  obtain ⟨var, _, keyed⟩ := mem_source there
  obtain ⟨key, _, rfl⟩ := Option.map_eq_some_iff.mp keyed
  exact ⟨_, _, rfl⟩

theorem bears_of_key {name key : String} (keyed : key? name = some key) :
    bears name = bearsKey key := by
  rw [bears, path?, keyed]
  rfl

theorem filter_entries (vars : Variables) :
    (vars.filterMap entry?).filter (fun e => bearsKey e.1) = vars.bearing.filterMap entry? := by
  rw [List.filter_filterMap, bearing, List.filterMap_filter]
  congr 1
  funext var
  cases keyed : key? var.1 with
  | none => simp [keyed, entry?]
  | some key => simp [keyed, entry?, bears_of_key keyed, Option.filter]

theorem filter_source (m : Machine) (once : (vars.map (·.1)).Nodup) :
    (vars.source m).filter (fun e => bearsKey e.1) = vars.bearing.source m := by
  rw [source, Machine.filter_walk _ (Table.nodup_collect _), Table.filter_collect, filter_entries,
    bearing, Machine.filter_walk _ once]
  rfl

theorem source_of_perm (perm : v.Perm w) (once : (v.map (·.1)).Nodup) :
    v.source m = w.source m := by
  rw [source, source, Machine.walk_of_perm perm once]

-- On one machine the same is seen, in whatever order its maps are walked.
theorem sights_agree (m : Machine) (onceV : (v.map (·.1)).Nodup) (onceW : (w.map (·.1)).Nodup)
    (agree : ∀ name, bears name = true → v.get? name = w.get? name) (root : Tree) :
    Alike (laySource root (v.source m)).sights (laySource root (w.source m)).sights := by
  have same := source_of_perm (m := m) (perm_of_agree onceV onceW agree) (nodup_bearing onceV)
  rw [Tree.sights_laySource (scalars_source m v), Tree.sights_laySource (scalars_source m w)]
  have left := Tree.foldl_layFace_filter (v.source m) root.sights
  have right := Tree.foldl_layFace_filter (w.source m) root.sights
  rw [filter_source m onceV, same] at left
  rw [filter_source m onceW] at right
  exact left.trans right.symm

theorem source_perm (m : Machine) (keys : ((vars.filterMap entry?).map (·.1)).Nodup) :
    (vars.source m).Perm (vars.filterMap entry?) := by
  have walked := (m.walk_perm ["variables"] vars).filterMap entry?
  refine (m.walk_perm ..).trans ?_
  rwa [Table.collect_of_nodup ((walked.map (·.1)).nodup_iff.mpr keys)]

theorem source_inOrder {entries : Entries} (perm : (vars.filterMap entry?).Perm entries)
    (once : (entries.map (·.1)).Nodup) : vars.source (.inOrder (entries.map (·.1))) = entries := by
  have walked := (Machine.inOrder (entries.map (·.1))).walk_perm ["variables"] vars
  have all := (walked.filterMap entry?).trans perm
  have apart := (all.map (·.1)).nodup_iff.mpr once
  rw [source, Table.collect_of_nodup apart, Machine.walk_inOrder _ all apart]

-- Of variables that keep apart, each entry that counts leads on a way of its own.
theorem parted_of_apart (apart : v.Apart) (thereA : a ∈ v.bearing) (thereB : b ∈ v.bearing)
    (distinct : a.1 ≠ b.1) {first second : String × Tree} (readA : entry? a = some first)
    (readB : entry? b = some second) : ∃ p q, Path.parse? first.1 = some p ∧
      Path.parse? second.1 = some q ∧ p.apart q = true := by
  obtain ⟨amongA, countsA⟩ := List.mem_filter.mp thereA
  obtain ⟨amongB, countsB⟩ := List.mem_filter.mp thereB
  have free := apart a amongA b amongB distinct
  obtain ⟨key, keyA, rfl⟩ := Option.map_eq_some_iff.mp readA
  obtain ⟨key', keyB, rfl⟩ := Option.map_eq_some_iff.mp readB
  have ways : path? a.1 = Path.parse? key ∧ path? b.1 = Path.parse? key' := by
    simp [path?, keyA, keyB]
  rw [bears, ways.1] at countsA
  rw [bears, ways.2] at countsB
  rw [clash, ways.1, ways.2] at free
  cases leadsA : Path.parse? key with
  | none => simp [leadsA] at countsA
  | some p =>
    cases leadsB : Path.parse? key' with
    | none => simp [leadsB] at countsB
    | some q =>
      simp only [leadsA, leadsB] at countsA countsB free
      exact ⟨p, q, rfl, rfl, by simpa [countsA, countsB] using free⟩

theorem nodup_keys (apart : v.Apart) (once : (v.map (·.1)).Nodup) :
    ((v.bearing.filterMap entry?).map (·.1)).Nodup := by
  rw [List.Nodup, List.pairwise_map, List.pairwise_filterMap]
  have names : v.bearing.Pairwise fun a b => a.1 ≠ b.1 := List.pairwise_map.mp (nodup_bearing once)
  refine names.imp_of_mem ?_
  intro a b thereA thereB distinct first readA second readB same
  obtain ⟨p, q, leadsA, leadsB, parted⟩ := parted_of_apart apart thereA thereB distinct readA readB
  rw [← same, leadsA] at leadsB
  cases leadsB
  simp [Path.apart, PathStep.apart_self] at parted

-- Where the variables keep apart the same is seen on two machines.
theorem sights_machines (apart : v.Apart) (once : (v.map (·.1)).Nodup)
    (alike : Alike first.sights second.sights) (m n : Machine) :
    Alike (laySource first (v.source m)).sights (laySource second (v.source n)).sights := by
  have keys := nodup_keys apart once
  have order : (v.bearing.source m).foldl layFace first.sights =
      (v.bearing.source n).foldl layFace first.sights := by
    refine ((source_perm m keys).trans (source_perm n keys).symm).foldl_eq' ?_ first.sights
    intro e thereE f thereF seen
    obtain ⟨a, thereA, readA⟩ := List.mem_filterMap.mp ((source_perm m keys).mem_iff.mp thereE)
    obtain ⟨b, thereB, readB⟩ := List.mem_filterMap.mp ((source_perm m keys).mem_iff.mp thereF)
    by_cases same : a.1 = b.1
    · have one := List.inj_on_of_nodup_map (nodup_bearing once) thereA thereB same
      subst one
      cases readA.symm.trans readB
      rfl
    · obtain ⟨p, q, leadsA, leadsB, parted⟩ := parted_of_apart apart thereA thereB same readA readB
      exact Tree.layFace_comm leadsA leadsB parted seen
  rw [Tree.sights_laySource (scalars_source m v), Tree.sights_laySource (scalars_source n v)]
  have left := Tree.foldl_layFace_filter (v.source m) first.sights
  have right := Tree.foldl_layFace_filter (v.source n) second.sights
  rw [filter_source m once, order] at left
  rw [filter_source n once] at right
  exact left.trans ((Tree.foldl_layFace_alike alike _).trans right.symm)

end Variables

def Loaded.labelled (l : Loaded) (environment : String) : Loaded := { l with environment }

namespace Place

open Variables (bears)

variable {m n : Machine} {v w : Variables} {folder : Folder} {path : Option String}
  {entries : List (String × Datum)}

-- Two outcomes are the same, or else, on two machines, both are refusals, for wrong values in two
-- different places: each machine tells the one that it comes upon first.
def Same (m n : Machine) (a b : Except ConfigError Loaded) : Prop :=
  a = b ∨ m ≠ n ∧ ∃ e f : Mismatch, e.key ≠ f.key ∧ a = .error (.shape e.message) ∧
    b = .error (.shape f.message)

-- The maps are walked in one order, or the order is of no account.
def Indifferent (m n : Machine) (vars : Variables) (folder : Folder) (path : Option String) :
    Prop :=
  m = n ∨ vars.Apart ∧ folder.Steady path

section Agreement

variable (onceV : (v.map (·.1)).Nodup) (onceW : (w.map (·.1)).Nodup)
  (agree : ∀ name, bears name = true → v.get? name = w.get? name)

include onceV onceW agree

theorem sights_merged (even : Indifferent m n v folder path)
    (said : folder.table? path = some entries) :
    Alike (merged [fileEntries m (path.getD "") entries, v.source m]).sights
      (merged [fileEntries n (path.getD "") entries, w.source n]).sights := by
  rcases even with rfl | ⟨apart, steady⟩
  · exact Variables.sights_agree m onceV onceW agree _
  · exact (Variables.sights_machines apart onceV (steady entries said m n) m n).trans
      (Variables.sights_agree n onceV onceW agree _)

theorem decoded_same (even : Indifferent m n v folder path)
    (said : folder.table? path = some entries) (label : String) :
    Same m n
      ((decoded m (merged [fileEntries m (path.getD "") entries, v.source m])).map
        fun s => ⟨s, label, path⟩)
      ((decoded n (merged [fileEntries n (path.getD "") entries, w.source n])).map
        fun s => ⟨s, label, path⟩) := by
  have alike := sights_merged onceV onceW agree even said
  have seen := Tree.toSettings_alike n alike
  by_cases machines : m = n
  · subst machines
    exact .inl (by rw [decoded, decoded, seen])
  rw [decoded, decoded, ← seen]
  rcases Tree.toSettings_machines m n (merged [fileEntries m (path.getD "") entries, v.source m])
    with same | ⟨e, f, apart, first, second⟩
  · exact .inl (by rw [same])
  · exact .inr ⟨machines, e, f, apart, by rw [first]; rfl, by rw [second]; rfl⟩

theorem layered_same {p q : Place} {vs ws : Option Variables} {a b : Except ConfigError Loaded}
    (places : p.folder = folder ∧ q.folder = folder) (givenV : vs.getD p.vars = v)
    (givenW : ws.getD q.vars = w) (even : Indifferent m n v folder path)
    (cameV : p.layered m path vs = some a) (cameW : q.layered n path ws = some b) :
    Same m n a (b.map (·.labelled p.vars.environmentName)) := by
  obtain ⟨here, there⟩ := places
  cases said : folder.table? path with
  | none =>
    obtain ⟨error, refused⟩ := pathSource_error said
    rw [layered, here, refused] at cameV
    rw [layered, there, refused] at cameW
    cases cameV
    cases cameW
    exact .inl rfl
  | some entries =>
    have outcomeV := layered_some (here ▸ said) cameV
    have outcomeW := layered_some (there ▸ said) cameW
    rw [givenV] at outcomeV
    rw [givenW] at outcomeW
    have relabelled : b.map (·.labelled p.vars.environmentName) =
        (decoded n (merged [fileEntries n (path.getD "") entries, w.source n])).map
          fun s => ⟨s, p.vars.environmentName, path⟩ := by
      rw [outcomeW]
      cases decoded n (merged [fileEntries n (path.getD "") entries, w.source n]) <;> rfl
    rw [outcomeV, relabelled]
    exact decoded_same onceV onceW agree even said p.vars.environmentName

end Agreement

theorem labelled_of_layered {p : Place} {vars : Option Variables} {b : Except ConfigError Loaded}
    (came : p.layered m path vars = some b) :
    b.map (·.labelled p.vars.environmentName) = b := by
  unfold layered at came
  cases read : pathSource m p.folder path with
  | error error =>
    rw [read] at came
    cases came
    rfl
  | ok file =>
    rw [read] at came
    obtain ⟨settled, _, rfl⟩ := Option.map_eq_some_iff.mp came
    cases settled <;> rfl

theorem layered_ends {p : Place} {vars : Option Variables} (within : ∀ entries,
    p.folder.table? path = some entries → Within m.room entries (vars.getD p.vars)) :
    (p.layered m path vars).isSome = true := by
  cases said : p.folder.table? path with
  | none =>
    obtain ⟨error, refused⟩ := pathSource_error said
    rw [layered, refused, Option.isSome_some]
  | some entries => rw [layered_within said (within entries said), Option.isSome_some]

-- With variables that agree where they bear on the settings, loading comes to the same; those of
-- the process besides tell the name of the environment, and which file is read.
theorem bystanders_change_nothing (folder : Folder) (onceV : (v.map (·.1)).Nodup)
    (onceW : (w.map (·.1)).Nodup)
    (agree : ∀ name, bears name = true → v.get? name = w.get? name) :
    (∀ path m n, Indifferent m n v folder path →
      (∀ vars a b, (Place.mk vars folder).loadOn m (.layered path (some v)) = some a →
        (Place.mk vars folder).loadOn n (.layered path (some w)) = some b → Same m n a b) ∧
      (∀ a b, (Place.mk v folder).loadOn m (.fromFile path) = some a →
        (Place.mk w folder).loadOn n (.fromFile path) = some b →
          Same m n a (b.map (·.labelled v.environmentName))) ∧
      (v.get? Names.configPath = path → ∀ a b, (Place.mk v folder).loadOn m .usual = some a →
        (Place.mk w folder).loadOn n (.fromFile path) = some b →
          Same m n a (b.map (·.labelled v.environmentName)))) ∧
    (∀ path entries, folder.table? path = some entries → (Datum.table entries).Distinct →
      (∀ e ∈ Table.collect entries, Tree.stepsOf (Text.lower e.1) = []) → folder.Steady path) ∧
    (∀ (p : Place) m path vars,
      (∀ entries, p.folder.table? path = some entries → Within m.room entries (vars.getD p.vars)) →
        (p.loadOn m (.layered path vars)).isSome = true) ∧
    bears Names.environment = false ∧ bears Names.configPath = false := by
  refine ⟨fun path m n even => ?_, fun _ _ => Folder.steady_of_distinct,
    fun _ _ _ _ => layered_ends, by decide, by decide⟩
  have fromFile : ∀ a b, (Place.mk v folder).loadOn m (.fromFile path) = some a →
      (Place.mk w folder).loadOn n (.fromFile path) = some b →
        Same m n a (b.map (·.labelled v.environmentName)) :=
    fun _ _ => layered_same onceV onceW agree ⟨rfl, rfl⟩ rfl rfl even
  refine ⟨fun vars a b cameV cameW => ?_, fromFile, ?_⟩
  · have same := layered_same onceV onceW agree ⟨rfl, rfl⟩ rfl rfl even cameV cameW
    rwa [labelled_of_layered cameW] at same
  · rintro rfl
    exact fromFile

-- The label of the environment and a name that is no path stand by, and no order counts.
def crowded : Variables :=
  [("CYRK_ENV", "production"), ("CYRK_LOGGING__LEVEL", "warn"), ("CYRK_LOGGING__JSON", "true")]

def lonely : Variables :=
  [("cyrk_[", "x"), ("CYRK_LOGGING__JSON", "true"), ("CYRK_LOGGING__LEVEL", "warn")]

theorem crowded_agrees : ∀ name, bears name = true → crowded.get? name = lonely.get? name := by
  intro name counts
  have environment : "CYRK_ENV" ≠ name := by
    rintro rfl
    exact absurd counts (by decide)
  have plain : "cyrk_[" ≠ name := by
    rintro rfl
    exact absurd counts (by decide)
  have here : crowded.get? name = Table.find name
      [("CYRK_LOGGING__LEVEL", "warn"), ("CYRK_LOGGING__JSON", "true")] := if_neg environment
  have there : lonely.get? name = Table.find name
      [("CYRK_LOGGING__JSON", "true"), ("CYRK_LOGGING__LEVEL", "warn")] := if_neg plain
  rw [here, there]
  exact Table.find_of_perm (.swap ..) (by decide)

theorem crowded_apart : crowded.Apart := by decide +kernel

theorem crowded_within (room : Nat) : Within room [] crowded where
  file := nofun
  env := by
    simp only [crowded, List.forall_mem_cons]
    refine ⟨?_, ?_, ?_, nofun⟩
    · rintro key ⟨⟩
      nofun
    · rintro key ⟨⟩
      nofun
    · rintro key ⟨⟩
      nofun

theorem settle_near {keys : List String} {source : Entries} {root : Tree}
    (near : Tree.safe 16777216 Tree.emptyTable source = true)
    (merges : merged [[], source] = root) :
    settle (.inOrder keys) [[], source] = some (decoded (.inOrder keys) root) := by
  have here : (Machine.inOrder keys).room = 16777216 := rfl
  rw [settle, here, List.flatten_cons, List.flatten_singleton, List.nil_append, if_pos near, merges]

theorem settle_far {source : Entries}
    (far : Tree.safe m.room Tree.emptyTable source = false) : settle m [[], source] = none := by
  rw [settle, List.flatten_cons, List.flatten_singleton, List.nil_append, far]
  rfl

theorem layered_bare {p : Place} {vars : Option Variables} {source : Entries}
    (env : (vars.getD p.vars).source m = source) : p.layered m none vars =
      (settle m [[], source]).map fun settled =>
        settled.map fun s => ⟨s, p.vars.environmentName, none⟩ := by
  have nothing : fileEntries m "" [] = [] := by
    rw [fileEntries_eq]
    exact congrArg inSmall Machine.walk_nil
  rw [layered_eq rfl, Option.getD_none, nothing, env]

theorem settle_logging {keys : List String} {source : Entries} {t : Tree} {logging : LogSettings}
    (near : Tree.safe 16777216 Tree.emptyTable source = true)
    (merges : merged [[], source] = .table none [("logging", t)])
    (read : ∀ m, t.toLogSettings m = .ok logging)
    (fit : (Settings.mk 4 1000 logging).validate = .ok ()) :
    settle (.inOrder keys) [[], source] = some (.ok ⟨4, 1000, logging⟩) := by
  have reads : (Tree.table none [("logging", t)]).toSettings (.inOrder keys) =
      .ok ⟨4, 1000, logging⟩ := Tree.toSettings_of_fields rfl rfl (read _)
  rw [settle_near near merges, decoded_eq reads, fit]
  rfl

def entryOf (key : String) (value : Scalar) : String × Tree :=
  (key, .scalar (some Variables.origin) value)

def strayEntry : String × Tree := entryOf "[" (.text "x")

def levelEntry : String × Tree := entryOf "logging.level" (.text "warn")

def jsonEntry : String × Tree := entryOf "logging.json" (.bool true)

theorem merged_lonely : merged [[], [strayEntry, jsonEntry, levelEntry]] =
    .table none [("[", strayEntry.2),
      ("logging", .table none [("json", jsonEntry.2), ("level", levelEntry.2)])] := by
  have stray : Path.parse? "[" = none := by decide
  have json : Path.parse? "logging.json" = some ⟨"logging", [.name "json"]⟩ := by decide
  have level : Path.parse? "logging.level" = some ⟨"logging", [.name "level"]⟩ := by decide
  simp [merged, Tree.laySource, Tree.setKey, Tree.rootOf, Tree.stepsOf, stray, json, level,
    strayEntry, jsonEntry, levelEntry, entryOf, Tree.setAt, Tree.changeEntry, Tree.layEntry,
    Tree.setEntry, Tree.emptyTable, Tree.entries, Table.find, Table.put, Tree.tableOrigin,
    Tree.null]

theorem lonely_loaded : ∃ m, (Place.mk lonely ⟨[], []⟩).loadOn m (.fromFile none) =
    some (.ok ⟨⟨4, 1000, ⟨"warn", true⟩⟩, "development", none⟩) := by
  have source := @Variables.source_inOrder lonely [strayEntry, jsonEntry, levelEntry] (.refl _)
    (by decide)
  have near : Tree.safe 16777216 Tree.emptyTable [strayEntry, jsonEntry, levelEntry] =
      true := by decide
  have read (m : Machine) : Tree.toSettings m (.table none [("[", strayEntry.2),
      ("logging", .table none [("json", jsonEntry.2), ("level", levelEntry.2)])]) =
        .ok ⟨4, 1000, ⟨"warn", true⟩⟩ := by
    have logging : Tree.toLogSettings m
        (.table none [("json", jsonEntry.2), ("level", levelEntry.2)]) = .ok ⟨"warn", true⟩ :=
      Tree.toLogSettings_of_fields m none rfl rfl
    exact Tree.toSettings_of_fields rfl rfl logging
  have fit : (Settings.mk 4 1000 ⟨"warn", true⟩).validate = .ok () := rfl
  have name : lonely.environmentName = "development" := by decide
  refine ⟨_, (layered_bare source).trans ?_⟩
  rw [settle_near near merged_lonely, decoded_eq (read _), fit, name]
  rfl

-- On any machine, then, the crowded variables come to the same.
theorem crowded_loaded :
    (crowded.map (·.1)).Nodup ∧ (lonely.map (·.1)).Nodup ∧
      (∀ name, bears name = true → crowded.get? name = lonely.get? name) ∧
      ∀ m, (Place.mk crowded ⟨[], []⟩).loadOn m .usual =
        some (.ok ⟨⟨4, 1000, ⟨"warn", true⟩⟩, "production", none⟩) := by
  have onceV : (crowded.map (·.1)).Nodup := by decide
  have onceW : (lonely.map (·.1)).Nodup := by decide
  refine ⟨onceV, onceW, crowded_agrees, fun m => ?_⟩
  obtain ⟨agreement, steady, ends, _⟩ :=
    bystanders_change_nothing ⟨[], []⟩ onceV onceW crowded_agrees
  obtain ⟨n, lonely_loaded⟩ := lonely_loaded
  have even : Indifferent m n crowded ⟨[], []⟩ none :=
    .inr ⟨crowded_apart, steady none [] rfl (.table [] .nil nofun) nofun⟩
  have near : ∀ entries, (Folder.mk [] []).table? none = some entries →
      Within m.room entries crowded := by
    rintro entries ⟨⟩
    exact crowded_within m.room
  obtain ⟨outcome, came⟩ := Option.isSome_iff_exists.mp (ends ⟨crowded, ⟨[], []⟩⟩ m none none near)
  have same := (agreement none m n even).2.2 (by decide) outcome _ came lonely_loaded
  rcases same with same | ⟨_, e, f, _, _, refused⟩
  · exact came.trans (congrArg some same)
  · cases refused

-- Why the order of maps cannot be left out of the account.

def nested (a b : String) : Bool :=
  match Variables.path? a, Variables.path? b with
  | some p, some q =>
    p.root = q.root && (p.steps.isPrefixOf q.steps || q.steps.isPrefixOf p.steps)
  | _, _ => false

def outcome (path : Option String) (settled : Option (Except ConfigError Settings)) :
    Option (Except ConfigError Loaded) :=
  settled.map fun settled => settled.map fun s => ⟨s, "development", path⟩

-- No two of the variables lead to one place or one below the other, and yet one and the same
-- loading comes to this or to that.
structure Torn (p : Place) (path : Option String) (vars : Variables)
    (first second : Option (Except ConfigError Settings)) : Prop where
  once : (vars.map (·.1)).Nodup
  unnested : ∀ a ∈ vars, ∀ b ∈ vars, a.1 ≠ b.1 → nested a.1 b.1 = false
  forth : ∃ m, p.loadOn m (.layered path (some vars)) = outcome path first
  back : ∃ m, p.loadOn m (.layered path (some vars)) = outcome path second
  differ : outcome path first ≠ outcome path second

def bare : Place := ⟨[], ⟨[], []⟩⟩

theorem torn_pair {a b : String × String} {first second : String × Tree}
    {x y : Option (Except ConfigError Settings)} (readA : Variables.entry? a = some first)
    (readB : Variables.entry? b = some second) (apart : first.1 ≠ second.1)
    (once : ([a, b].map (·.1)).Nodup) (unnested : nested a.1 b.1 = false ∧ nested b.1 a.1 = false)
    (forth : settle (.inOrder [first.1, second.1]) [[], [first, second]] = x)
    (back : settle (.inOrder [second.1, first.1]) [[], [second, first]] = y)
    (differ : outcome none x ≠ outcome none y) : Torn bare none [a, b] x y where
  once := once
  unnested := by simp [unnested]
  forth := by
    have source := @Variables.source_inOrder [a, b] [first, second] (by simp [readA, readB])
      (by simpa using apart)
    exact ⟨_, (layered_bare source).trans (congrArg _ forth)⟩
  back := by
    have source := @Variables.source_inOrder [a, b] [second, first]
      (by simpa [readA, readB] using .swap second first []) (by simpa using apart.symm)
    exact ⟨_, (layered_bare source).trans (congrArg _ back)⟩
  differ := differ

def firstItem : String × Tree := entryOf "logging[0]" (.text "debug")

def lastItem : String × Tree := entryOf "logging[-1]" (.text "warn")

theorem merged_torn :
    merged [[], [firstItem, jsonEntry]] =
        .table none [("logging", .table none [("json", jsonEntry.2)])] ∧
      merged [[], [jsonEntry, firstItem]] =
        .table none [("logging", .array none [firstItem.2])] ∧
      merged [[], [firstItem, lastItem]] =
        .table none [("logging", .array none [lastItem.2])] := by
  have first : Path.parse? "logging[0]" = some ⟨"logging", [.index 0]⟩ := by decide
  have entry : Path.parse? "logging.json" = some ⟨"logging", [.name "json"]⟩ := by decide
  have last : Path.parse? "logging[-1]" = some ⟨"logging", [.index (-1)]⟩ := by decide
  have start : ∀ length, Tree.place? 0 length = some 0 := fun _ => rfl
  have finish : ∀ length, Tree.place? (-1) length =
      if 1 ≤ length then some (length - 1) else none := fun _ => rfl
  refine ⟨?_, ?_, ?_⟩ <;>
    simp [merged, Tree.laySource, Tree.setKey, Tree.rootOf, Tree.stepsOf, first, entry, last,
      firstItem, jsonEntry, lastItem, entryOf, Tree.setAt, Tree.changeEntry, Tree.changeItem, start,
      finish, Tree.layEntry, Tree.setEntry, Tree.emptyTable, Tree.entries, Table.find, Table.put,
      Tree.tableOrigin, Tree.null, Tree.padded, Tree.arrayItems, Tree.arrayOrigin]

-- An item and an entry of one value, which cannot be both an array and a table.
theorem torn_kinds : Torn bare none [("CYRK_LOGGING[0]", "debug"), ("CYRK_LOGGING__JSON", "true")]
    (some (.ok ⟨4, 1000, ⟨"info", true⟩⟩)) (some (.ok ⟨4, 1000, ⟨"debug", false⟩⟩)) := by
  obtain ⟨table, array, _⟩ := merged_torn
  have readFirst : Variables.entry? ("CYRK_LOGGING[0]", "debug") = some firstItem := rfl
  have readJson : Variables.entry? ("CYRK_LOGGING__JSON", "true") = some jsonEntry := rfl
  refine torn_pair readFirst readJson (by decide) (by decide) (by decide +kernel) ?_ ?_ ?_
  · have near : Tree.safe 16777216 Tree.emptyTable [firstItem, jsonEntry] = true := by
      decide +kernel
    have read (m : Machine) : Tree.toLogSettings m (.table none [("json", jsonEntry.2)]) =
        .ok ⟨"info", true⟩ := Tree.toLogSettings_of_fields m none rfl rfl
    exact settle_logging near table read rfl
  · have near : Tree.safe 16777216 Tree.emptyTable [jsonEntry, firstItem] = true := by
      decide +kernel
    have read (m : Machine) : Tree.toLogSettings m (.array none [firstItem.2]) =
        .ok ⟨"debug", false⟩ := rfl
    exact settle_logging near array read rfl
  · simp [outcome, Except.map]

-- Items that are counted from either end of an array: without the first there is no last.
theorem torn_ends : Torn bare none [("CYRK_LOGGING[0]", "debug"), ("CYRK_LOGGING[-1]", "warn")]
    (some (.ok ⟨4, 1000, ⟨"warn", false⟩⟩)) none := by
  obtain ⟨_, _, behind⟩ := merged_torn
  have readFirst : Variables.entry? ("CYRK_LOGGING[0]", "debug") = some firstItem := rfl
  have readLast : Variables.entry? ("CYRK_LOGGING[-1]", "warn") = some lastItem := rfl
  refine torn_pair readFirst readLast (by decide) (by decide) (by decide +kernel) ?_ ?_ ?_
  · have near : Tree.safe 16777216 Tree.emptyTable [firstItem, lastItem] = true := by
      decide +kernel
    have read (m : Machine) : Tree.toLogSettings m (.array none [lastItem.2]) =
        .ok ⟨"warn", false⟩ := rfl
    exact settle_logging near behind read rfl
  · have far : Tree.safe 16777216 Tree.emptyTable [lastItem, firstItem] = false := by
      decide +kernel
    exact settle_far far
  · simp [outcome]

def workersEntry : String × Tree := entryOf "workers" (.text "abc")

def timeoutEntry : String × Tree := entryOf "client_timeout_ms" (.text "xyz")

def refusal (key text : String) : Option (Except ConfigError Settings) :=
  some (.error (.shape (Mismatch.message ⟨.text text, .integer, key, some Variables.origin⟩)))

theorem merged_values :
    merged [[], [workersEntry, timeoutEntry]] = .table none [workersEntry, timeoutEntry] ∧
      merged [[], [timeoutEntry, workersEntry]] = .table none [timeoutEntry, workersEntry] := by
  have workers : Path.parse? "workers" = some ⟨"workers", []⟩ := by decide
  have timeout : Path.parse? "client_timeout_ms" = some ⟨"client_timeout_ms", []⟩ := by decide
  refine ⟨?_, ?_⟩ <;>
    simp [merged, Tree.laySource, Tree.setKey, Tree.rootOf, Tree.stepsOf, workers, timeout,
      workersEntry, timeoutEntry, entryOf, Tree.setAt, Tree.layEntry, Tree.setEntry,
      Tree.emptyTable, Tree.entries, Table.put, Tree.tableOrigin]

-- The first field in the walk that has a fault is told.
theorem decoded_fault {root : Tree} {e : Mismatch}
    {first : String × Except Mismatch (Settings → Settings)}
    {rest : List (String × Except Mismatch (Settings → Settings))} (keys : List String)
    (perm : (Tree.changes m root).Perm (first :: rest)) (named : (first :: rest).map (·.1) = keys)
    (order : keys.Pairwise fun a b => m.before ["settings"] a b = true)
    (failed : first.2 = .error e) : decoded m root = .error (.shape e.message) := by
  have once : ((Tree.changes m root).map (·.1)).Nodup := by
    have keys : (Tree.changes m root).map (·.1) = ["workers", "client_timeout_ms", "logging"] := rfl
    rw [keys]
    decide
  have sorted := List.pairwise_map.mp (named ▸ order)
  rw [decoded, Tree.toSettings, Machine.walk_eq perm once sorted, Tree.changed_cons, failed]
  rfl

theorem torn_values : Torn bare none [("CYRK_WORKERS", "abc"), ("CYRK_CLIENT_TIMEOUT_MS", "xyz")]
    (refusal "workers" "abc") (refusal "client_timeout_ms" "xyz") := by
  obtain ⟨forth, back⟩ := merged_values
  have readWorkers : Variables.entry? ("CYRK_WORKERS", "abc") = some workersEntry := rfl
  have readTimeout : Variables.entry? ("CYRK_CLIENT_TIMEOUT_MS", "xyz") = some timeoutEntry := rfl
  have noWorkers : Tree.toWord "workers" workersEntry.2 =
      .error ⟨.text "abc", .integer, "workers", some Variables.origin⟩ := rfl
  have noTimeout : Tree.toWord "client_timeout_ms" timeoutEntry.2 =
      .error ⟨.text "xyz", .integer, "client_timeout_ms", some Variables.origin⟩ := rfl
  refine torn_pair readWorkers readTimeout (by decide) (by decide) (by decide +kernel) ?_ ?_ ?_
  · have near : Tree.safe 16777216 Tree.emptyTable [workersEntry, timeoutEntry] = true := by
      decide +kernel
    rw [settle_near near forth]
    refine congrArg some (decoded_fault ["workers", "client_timeout_ms", "logging"] (.refl _) rfl
      (by decide) ?_)
    exact Tree.change_error (fun n (s : Settings) => { s with workers := n }) noWorkers
  · have near : Tree.safe 16777216 Tree.emptyTable [timeoutEntry, workersEntry] = true := by
      decide +kernel
    rw [settle_near near back]
    refine congrArg some (decoded_fault ["client_timeout_ms", "workers", "logging"] (.swap ..) rfl
      (by decide) ?_)
    exact Tree.change_error (fun n (s : Settings) => { s with clientTimeoutMs := n }) noTimeout
  · have differ : Mismatch.message ⟨.text "abc", .integer, "workers", some Variables.origin⟩ ≠
        Mismatch.message ⟨.text "xyz", .integer, "client_timeout_ms", some Variables.origin⟩ := by
      decide +kernel
    simpa [refusal, outcome, Except.map] using differ

-- A file that sets one leaf under two spellings of its key.
def twice : Json := .obj [("workers", .ofNat 1), ("WORKERS", .ofNat 2)]

def spelled : List (String × Int) := [("workers", 1), ("WORKERS", 2)]

def twiceEntries : List (String × Datum) := spelled.map fun e => (e.1, .int e.2)

def laidAs (key : String) (n : Int) : String × Tree := (key, .scalar (some "c.json") (.int n))

theorem twice_said : (holding twice).folder.table? (some "c.json") = some twiceEntries := by
  refine holding_said ?_ (by decide) ?_
  · simp [twice, Json.Sound, Json.SoundMembers, Json.ofNat, Numeral.ofNat]
  · have one : Datum.ofNumeral? (.ofNat 1) = some (.int 1) := Datum.ofNumeral?_ofNat (by decide)
    have two : Datum.ofNumeral? (.ofNat 2) = some (.int 2) := Datum.ofNumeral?_ofNat (by decide)
    simp [twice, twiceEntries, spelled, Datum.ofJson?, Datum.ofJsonMembers?, Json.ofNat, one, two]

-- The file as it is read where the map is walked in the order of these entries.
theorem twice_read {entries : List (String × Int)} (perm : spelled.Perm entries) :
    fileEntries (.inOrder (entries.map (·.1))) "c.json" twiceEntries =
      entries.map fun e => laidAs (Text.lower e.1) e.2 := by
  have once : (spelled.map (·.1)).Nodup := by decide
  have tidy : Folder.tidy "c.json" = "c.json" := by decide +kernel
  have collected : Table.collect twiceEntries = twiceEntries := Table.collect_of_nodup (by decide)
  have read (m : Machine) : (twiceEntries.map fun e =>
      (e.1, Tree.ofDatum m (Folder.tidy "c.json") [e.1, "file"] e.2)) =
        spelled.map fun e => laidAs e.1 e.2 := by
    rw [tidy, twiceEntries, List.map_map]
    exact List.map_congr_left fun e _ => by simp [Datum.int, Tree.ofDatum, laidAs]
  have walked := Machine.walk_inOrder ["file"] (perm.map fun e => laidAs e.1 e.2) (by
    rw [List.map_map]
    exact once)
  rw [List.map_map] at walked
  rw [fileEntries_eq, collected, read]
  exact (congrArg inSmall walked).trans (by rw [inSmall, List.map_map]; rfl)

theorem twice_loads {m : Machine} {source : Entries} {n : Nat} (fit : 1 ≤ n)
    (read : fileEntries m "c.json" twiceEntries = source)
    (near : Tree.safe m.room Tree.emptyTable source = true)
    (merges : merged [source, []] = .table none [laidAs "workers" n]) :
    (holding twice).loadOn m (.layered (some "c.json") (some [])) =
      outcome (some "c.json") (some (.ok ⟨n, 1000, ⟨"info", false⟩⟩)) := by
  have nothing : Variables.source m [] = [] := by
    rw [Variables.source, Machine.walk_nil]
    exact Machine.walk_nil
  have decodes : Tree.toSettings m (.table none [laidAs "workers" n]) =
      .ok ⟨n, 1000, ⟨"info", false⟩⟩ := by
    refine Tree.toSettings_of_fields ?_ rfl rfl
    simp [Tree.entries, Table.find, laidAs, Tree.field, Tree.toWord]
  have valid : (Settings.mk n 1000 ⟨"info", false⟩).validate = .ok () := by
    have shown : 'i' ∈ "info".toList := by decide
    exact Settings.accepted ⟨fit, Nat.le_of_ble_eq_true rfl, 'i', shown, by decide⟩
  rw [loadOn, layered_eq twice_said, Option.getD_some, Option.getD_some, read, nothing, settle,
    List.flatten_cons, List.flatten_singleton, List.append_nil, if_pos near, merges,
    decoded_eq decodes, valid]
  rfl

theorem merged_twice :
    merged [[laidAs "workers" 1, laidAs "workers" 2], []] = .table none [laidAs "workers" 2] ∧
      merged [[laidAs "workers" 2, laidAs "workers" 1], []] =
        .table none [laidAs "workers" 1] := by
  have workers : Path.parse? "workers" = some ⟨"workers", []⟩ := by decide
  refine ⟨?_, ?_⟩ <;>
    simp [merged, Tree.laySource, Tree.setKey, Tree.rootOf, Tree.stepsOf, workers, laidAs,
      Tree.setAt, Tree.layEntry, Tree.setEntry, Tree.emptyTable, Tree.entries, Table.put,
      Tree.tableOrigin]

theorem torn_file : Torn (holding twice) (some "c.json") [] (some (.ok ⟨2, 1000, ⟨"info", false⟩⟩))
    (some (.ok ⟨1, 1000, ⟨"info", false⟩⟩)) where
  once := .nil
  unnested := nofun
  forth := ⟨_, twice_loads (by decide) (twice_read (.refl _)) (by decide +kernel) merged_twice.1⟩
  back := ⟨_, twice_loads (by decide) (twice_read (.swap ("WORKERS", 2) ("workers", 1) []))
    (by decide +kernel) merged_twice.2⟩
  differ := by simp [outcome, Except.map]

-- A variable that bears on nothing, with an index that no array can reach.
def far : Variables := [("CYRK_X[9223372036854775807]", "1")]

def farEntry : String × Tree := entryOf "x[9223372036854775807]" (.int 1)

theorem far_dies {m : Machine} (small : m.room ≤ 9223372036854775807) :
    bare.loadOn m (.layered none (some far)) = none := by
  have read : Variables.entry? ("CYRK_X[9223372036854775807]", "1") = some farEntry := rfl
  have source : far.source m = [farEntry] := by
    rw [Variables.source, far, Machine.walk_singleton, List.filterMap_cons_some read]
    exact Machine.walk_singleton farEntry
  have leads : Path.parse? "x[9223372036854775807]" =
      some ⟨"x", [.index 9223372036854775807]⟩ := by decide +kernel
  have unreached : Tree.safe m.room Tree.emptyTable [farEntry] = false := by
    have place : Tree.place? 9223372036854775807 0 = some 9223372036854775807 := rfl
    simp [Tree.safe, Tree.reaches, Tree.rootOf, Tree.stepsOf, farEntry, entryOf, leads,
      Tree.emptyTable, Tree.entries, Table.find, Tree.null, Tree.arrayItems, place, small]
  rw [loadOn, layered_bare source, settle_far unreached]
  rfl

theorem far_agrees (name : String) (counts : bears name = true) :
    far.get? name = Variables.get? [] name := by
  refine if_neg ?_
  rintro rfl
  exact absurd counts (by decide +kernel)

theorem bare_loads (m : Machine) : bare.loadOn m (.layered none (some [])) =
    outcome none (some (.ok .default)) := by
  have nothing : Variables.source m [] = [] := by
    rw [Variables.source, Machine.walk_nil]
    exact Machine.walk_nil
  have read : Tree.emptyTable.toSettings m = .ok .default := Tree.toSettings_of_fields rfl rfl rfl
  have fit : Settings.default.validate = .ok () := rfl
  have settled : settle m [[], []] = some (decoded m Tree.emptyTable) := rfl
  rw [loadOn, layered_bare nothing, settled, decoded_eq read, fit]
  rfl

-- What a loading comes to may depend on the order of maps, also without other variables; and a
-- variable that bears on nothing may end it.
theorem order_of_maps_counts :
    Torn bare none [("CYRK_LOGGING[0]", "debug"), ("CYRK_LOGGING__JSON", "true")]
        (some (.ok ⟨4, 1000, ⟨"info", true⟩⟩)) (some (.ok ⟨4, 1000, ⟨"debug", false⟩⟩)) ∧
      Torn bare none [("CYRK_LOGGING[0]", "debug"), ("CYRK_LOGGING[-1]", "warn")]
        (some (.ok ⟨4, 1000, ⟨"warn", false⟩⟩)) none ∧
      Torn bare none [("CYRK_WORKERS", "abc"), ("CYRK_CLIENT_TIMEOUT_MS", "xyz")]
        (refusal "workers" "abc") (refusal "client_timeout_ms" "xyz") ∧
      Torn (holding twice) (some "c.json") [] (some (.ok ⟨2, 1000, ⟨"info", false⟩⟩))
        (some (.ok ⟨1, 1000, ⟨"info", false⟩⟩)) ∧
      (∀ name, bears name = true → far.get? name = Variables.get? [] name) ∧
      ∀ m : Machine, m.room ≤ 9223372036854775807 →
        bare.loadOn m (.layered none (some far)) = none ∧
          bare.loadOn m (.layered none (some [])) = outcome none (some (.ok .default)) :=
  ⟨torn_kinds, torn_ends, torn_values, torn_file, far_agrees,
    fun m small => ⟨far_dies small, bare_loads m⟩⟩

end Place

end Kitchen.Config
