import Kitchen.Engine.Launch
import Kitchen.Proofs.Fields
import Kitchen.Proofs.JsonText
import Kitchen.Proofs.Leaves
import Mathlib.Data.List.Nodup

namespace Kitchen

open Config (Leaf Datum)

def Settings.at (s : Settings) : Leaf → Datum
  | .workers => .int s.workers
  | .timeout => .int s.clientTimeoutMs
  | .level => .text s.logging.level
  | .json => .bool s.logging.json

def Settings.Fit (s : Settings) : Prop :=
  1 ≤ s.workers ∧ 1 ≤ s.clientTimeoutMs ∧ ∃ c ∈ s.logging.level.toList, Text.isBlank c = false

namespace Config

def Leaf.Takes : Leaf → Datum → Prop
  | .workers, value | .timeout, value => ∃ n : Nat, value = .int n
  | .level, value => ∃ text, value = .text text
  | .json, value => ∃ flag, value = .bool flag

-- A layer sets no leaf twice, and each to a value of its type.
structure Layer (leaves : List (Leaf × Datum)) : Prop where
  once : (leaves.map (·.1)).Nodup
  typed : ∀ entry ∈ leaves, entry.1.Takes entry.2

theorem Layer.of_perm {leaves others : List (Leaf × Datum)} (layer : Layer leaves)
    (perm : leaves.Perm others) : Layer others where
  once := (perm.map (·.1)).nodup_iff.mp layer.once
  typed entry there := layer.typed entry (perm.mem_iff.mpr there)

namespace Datum

-- The leaves that an entry of a file sets: one by its path, or those in the table `logging`.
def leavesAt (entry : String × Datum) : List (Leaf × Datum) :=
  match Path.parse? (Text.lower entry.1) with
  | none => []
  | some path =>
    if path = Leaf.logging then Leaf.inside (inSmall (Table.collect (entry.2.entries?.getD [])))
    else ((Leaf.ofPath? path).map (·, entry.2)).toList

def leaves (entries : List (String × Datum)) : List (Leaf × Datum) :=
  (Table.collect entries).flatMap leavesAt

def LeadsTo (entry : String × Datum) (path : Path) : Prop :=
  Path.parse? (Text.lower entry.1) = some path

-- A file that sets leaves, and besides has nothing in their places.
structure Plain (entries : List (String × Datum)) : Prop where
  layer : Layer (leaves entries)
  proper : ∀ entry ∈ Table.collect entries, ∀ path, LeadsTo entry path →
    path.aside = true ∨ (∃ leaf, path = Leaf.path leaf) ∨
      path = Leaf.logging ∧ ∃ inner, entry.2 = .table inner

end Datum

namespace Variables

-- The leaf that a variable sets.
def leafAt (var : String × String) : Option (Leaf × Datum) :=
  ((path? var.1).bind Leaf.ofPath?).map (·, .scalar (valueOf var.2))

def leaves (vars : Variables) : List (Leaf × Datum) := vars.filterMap leafAt

structure Plain (vars : Variables) : Prop where
  layer : Layer vars.leaves
  proper : ∀ var ∈ vars, ∀ path, path? var.1 = some path →
    path.aside = true ∨ ∃ leaf, path = Leaf.path leaf

end Variables

namespace Tree

variable {m : Machine} {origin : String} {place : List String} {entries : List (String × Datum)}
  {entry : String × Datum} {leaf : Leaf}

-- The value of a leaf as it is in a tree.
def shown (origin : String) : Datum → Tree
  | .scalar value => .scalar (some origin) value
  | _ => null

def tagged (origin : String) (leaves : List (Leaf × Datum)) : List (Leaf × Tree) :=
  leaves.map fun entry => (entry.1, shown origin entry.2)

theorem scalar_of_takes {value : Datum} (takes : leaf.Takes value) :
    ∃ scalar, value = .scalar scalar := by
  cases leaf with
  | workers | timeout =>
    obtain ⟨n, rfl⟩ := takes
    exact ⟨.int n, rfl⟩
  | level =>
    obtain ⟨text, rfl⟩ := takes
    exact ⟨.text text, rfl⟩
  | json =>
    obtain ⟨flag, rfl⟩ := takes
    exact ⟨.bool flag, rfl⟩

theorem ofDatum_of_takes {value : Datum} (takes : leaf.Takes value) :
    ofDatum m origin place value = shown origin value := by
  obtain ⟨scalar, rfl⟩ := scalar_of_takes takes
  rw [ofDatum]
  rfl

theorem inside_eq {α : Type} (entries : List (String × α)) :
    Leaf.inside entries =
      entries.flatMap fun entry => ((Leaf.within? entry.1).map (·, entry.2)).toList :=
  List.filterMap_eq_flatMap_toList ..

theorem inside_inSmall {α : Type} (entries : List (String × α)) :
    Leaf.inside (inSmall entries) =
      entries.flatMap fun entry =>
        ((Leaf.within? (Text.lower entry.1)).map (·, entry.2)).toList := by
  rw [inside_eq, inSmall, List.flatMap_map]

-- The table `logging` as it is read tells what it says, in the order in which its map is walked.
theorem inside_ofDatum (layer : Layer (Leaf.inside (inSmall (Table.collect entries)))) :
    (Leaf.inside (inSmall (ofDatum m origin place (.table entries)).entries)).Perm
      (tagged origin (Leaf.inside (inSmall (Table.collect entries)))) := by
  have typed := layer.typed
  rw [inside_inSmall] at typed
  rw [ofDatum, Tree.entries, inside_inSmall, inside_inSmall, ofEntries_collect, tagged,
    List.map_flatMap]
  refine ((Machine.walk_perm ..).flatMap_right _).trans ?_
  rw [List.flatMap_map]
  refine .of_eq (List.flatMap_congr fun e there => ?_)
  cases found : Leaf.within? (Text.lower e.1) with
  | none => simp
  | some leaf =>
    have takes := typed (leaf, e.2) (List.mem_flatMap.mpr ⟨e, there, by simp [found]⟩)
    simp [ofDatum_of_takes takes]

-- What the entries of a plain file become.

theorem layer_leavesAt (plain : Datum.Plain entries) (there : entry ∈ Table.collect entries) :
    Layer (Datum.leavesAt entry) where
  once := by
    have all := plain.layer.once
    rw [Datum.leaves, List.map_flatMap] at all
    exact (List.nodup_flatMap.mp all).1 entry there
  typed told mine := plain.layer.typed told (List.mem_flatMap.mpr ⟨entry, there, mine⟩)

theorem leavesAt_ofDatum (plain : Datum.Plain entries) (there : entry ∈ Table.collect entries) :
    (leavesAt (Text.lower entry.1, ofDatum m origin place entry.2)).Perm
      (tagged origin (Datum.leavesAt entry)) := by
  have layer := layer_leavesAt plain there
  unfold leavesAt
  unfold Datum.leavesAt at layer ⊢
  cases leads : Path.parse? (Text.lower entry.1) with
  | none => rfl
  | some path =>
    simp only [leads] at layer ⊢
    by_cases logging : path = Leaf.logging
    · subst logging
      rcases plain.proper entry there _ leads with aside | ⟨leaf, same⟩ | ⟨_, inner, same⟩
      · exact absurd rfl (Leaf.of_aside aside).1
      · exact absurd same.symm (Leaf.path_ne_logging leaf)
      · simp only [same, Datum.entries?, Option.getD_some, if_true] at layer ⊢
        exact inside_ofDatum layer
    · simp only [if_neg logging] at layer ⊢
      cases found : Leaf.ofPath? path with
      | none => rfl
      | some leaf =>
        have takes := layer.typed (leaf, entry.2) (by simp [found])
        simp [tagged, ofDatum_of_takes takes]

theorem proper_ofDatum (plain : Datum.Plain entries) (there : entry ∈ Table.collect entries) :
    Proper (Text.lower entry.1, ofDatum m origin place entry.2) := by
  have layer := layer_leavesAt plain there
  cases leads : Path.parse? (Text.lower entry.1) with
  | none => exact .stray _ leads
  | some path =>
    rcases plain.proper entry there path leads with aside | ⟨leaf, rfl⟩ | ⟨rfl, inner, same⟩
    · exact .aside _ path leads aside
    · obtain ⟨scalar, same⟩ := scalar_of_takes (layer.typed (leaf, entry.2) (by
        simp [Datum.leavesAt, leads, Leaf.path_ne_logging leaf, Leaf.ofPath?_path leaf]))
      rw [same, ofDatum]
      exact .leaf _ leaf _ scalar leads
    · rw [same, ofDatum]
      refine .logging _ _ _ leads ?_
      intro e among within
      obtain ⟨spelled, walked, rfl⟩ := List.mem_map.mp among
      rw [Machine.mem_walk, ofEntries_collect] at walked
      obtain ⟨x, inside, rfl⟩ := List.mem_map.mp walked
      obtain ⟨leaf, found⟩ := Option.isSome_iff_exists.mp within
      obtain ⟨scalar, same⟩ := scalar_of_takes (layer.typed (leaf, x.2) (by
        simp only [Datum.leavesAt, leads, same, Datum.entries?, Option.getD_some, if_true]
        rw [inside_inSmall]
        exact List.mem_flatMap.mpr ⟨x, inside, by simp [found]⟩))
      exact ⟨some origin, scalar, by rw [same, ofDatum]⟩

theorem leaves_fileEntries (m : Machine) (path : String) (plain : Datum.Plain entries) :
    (leaves (fileEntries m path entries)).Perm
      (tagged (Folder.tidy path) (Datum.leaves entries)) := by
  rw [fileEntries_eq, leaves, inSmall, List.flatMap_map, Datum.leaves, tagged, List.map_flatMap]
  refine ((Machine.walk_perm ..).flatMap_right _).trans ?_
  rw [List.flatMap_map]
  exact .flatMap_left _ fun entry there => leavesAt_ofDatum plain there

theorem proper_fileEntries (m : Machine) (path : String) (plain : Datum.Plain entries) :
    ∀ e ∈ fileEntries m path entries, Proper e := by
  intro e among
  obtain ⟨entry, there, rfl⟩ := mem_fileEntries among
  exact proper_ofDatum plain there

end Tree

namespace Variables

variable {m : Machine} {vars others : Variables} {var : String × String}

theorem Plain.of_perm (plain : vars.Plain) (perm : vars.Perm others) : others.Plain where
  layer := plain.layer.of_perm (perm.filterMap leafAt)
  proper var there := plain.proper var (perm.mem_iff.mpr there)

theorem leavesAt_entry (plain : vars.Plain) (there : var ∈ vars) :
    List.flatMap Tree.leavesAt (Option.toList <| entry? var) =
      Tree.tagged origin (leafAt var).toList := by
  have proper := plain.proper var there
  unfold entry? leafAt
  unfold path? at proper ⊢
  cases keyed : key? var.1 with
  | none => rfl
  | some key =>
    cases leads : Path.parse? key with
    | none => simp [Tree.leavesAt, Tree.tagged, leads]
    | some path =>
      have apart : path ≠ Leaf.logging := by
        rcases proper path (by simp [keyed, leads]) with aside | ⟨leaf, rfl⟩
        · exact (Leaf.of_aside aside).1
        · exact Leaf.path_ne_logging leaf
      cases found : Leaf.ofPath? path <;>
        simp [Tree.leavesAt, Tree.tagged, leads, apart, found, Tree.shown]

-- Two variables that come to one key set no leaf, and so it does not matter which of them counts.
theorem quiet_entries (plain : vars.Plain) :
    (vars.filterMap entry?).Pairwise fun a b =>
      a.1 = b.1 → ∀ value, Tree.leavesAt (a.1, value) = [] := by
  have once := plain.layer.once
  rw [leaves, List.filterMap_eq_flatMap_toList, List.map_flatMap] at once
  rw [List.pairwise_filterMap]
  refine (List.nodup_flatMap.mp once).2.imp_of_mem ?_
  intro a b thereA thereB apart first readA second readB same value
  obtain ⟨key, keyA, rfl⟩ := Option.map_eq_some_iff.mp readA
  obtain ⟨key', keyB, rfl⟩ := Option.map_eq_some_iff.mp readB
  have same : key = key' := same
  subst same
  unfold Tree.leavesAt
  cases leads : Path.parse? key with
  | none => rfl
  | some path =>
    rcases plain.proper a thereA path (by simp [path?, keyA, leads]) with aside | ⟨leaf, rfl⟩
    · simp [Leaf.of_aside aside]
    · simp [Function.onFun, leafAt, path?, keyA, keyB, leads, Leaf.ofPath?_path leaf] at apart

theorem leaves_source (m : Machine) (plain : vars.Plain) :
    (Tree.leaves (vars.source m)).Perm (Tree.tagged origin vars.leaves) := by
  have walked := m.walk_perm ["variables"] vars
  have plain := plain.of_perm walked.symm
  refine ((Machine.walk_perm ..).flatMap_right _).trans ?_
  rw [Table.flatMap_collect (quiet_entries plain), List.filterMap_eq_flatMap_toList,
    List.flatMap_assoc, List.flatMap_congr fun var there => leavesAt_entry plain there]
  have told := (walked.filterMap leafAt).map fun entry => (entry.1, Tree.shown origin entry.2)
  rwa [List.filterMap_eq_flatMap_toList, List.map_flatMap] at told

theorem proper_source (plain : vars.Plain) : ∀ entry ∈ vars.source m, Tree.Proper entry := by
  intro entry among
  obtain ⟨var, there, keyed⟩ := mem_source among
  obtain ⟨key, found, rfl⟩ := Option.map_eq_some_iff.mp keyed
  cases leads : Path.parse? key with
  | none => exact .stray _ leads
  | some path =>
    have proper := plain.proper var there path (by simp [path?, found, leads])
    rcases proper with aside | ⟨leaf, rfl⟩
    · exact .aside _ path leads aside
    · exact .leaf key leaf _ _ leads

end Variables

namespace Tree

variable {m : Machine} {root : Tree} {known : Leaf → Option Datum} {origin : Leaf → String}

theorem field_takes {α : Type} {decode : Tree → Except Mismatch α} (datumOf : α → Datum)
    {value : Option Datum} (default : α) (origin : String)
    (reads : ∀ datum, value = some datum →
      ∃ a, decode (shown origin datum) = .ok a ∧ datumOf a = datum) :
    ∃ a, field decode default (value.map (shown origin)) = .ok a ∧
      datumOf a = value.getD (datumOf default) := by
  cases value with
  | none => exact ⟨default, rfl, rfl⟩
  | some datum => exact reads datum rfl

theorem word_of_takes {value : Option Datum} (takes : ∀ datum, value = some datum →
    ∃ n : Nat, datum = .int n) (default : Nat) (key origin : String) :
    ∃ n : Nat, field (toWord key) default (value.map (shown origin)) = .ok n ∧
      Datum.int n = value.getD (.int default) := by
  refine field_takes (fun n : Nat => Datum.int n) default origin ?_
  intro datum set
  obtain ⟨n, rfl⟩ := takes datum set
  exact ⟨n, by simp [Datum.int, shown, toWord], rfl⟩

theorem text_of_takes {value : Option Datum} (takes : ∀ datum, value = some datum →
    ∃ text, datum = .text text) (default key origin : String) :
    ∃ text, field (toText key) default (value.map (shown origin)) = .ok text ∧
      Datum.text text = value.getD (.text default) := by
  refine field_takes Datum.text default origin ?_
  intro datum set
  obtain ⟨text, rfl⟩ := takes datum set
  exact ⟨text, rfl, rfl⟩

theorem bool_of_takes {value : Option Datum} (takes : ∀ datum, value = some datum →
    ∃ flag, datum = .bool flag) (default : Bool) (key origin : String) :
    ∃ flag, field (toBool key) default (value.map (shown origin)) = .ok flag ∧
      Datum.bool flag = value.getD (.bool default) := by
  refine field_takes Datum.bool default origin ?_
  intro datum set
  obtain ⟨flag, rfl⟩ := takes datum set
  exact ⟨flag, rfl, rfl⟩

section Decoding

variable (lodged : root.Lodged) (takes : ∀ leaf datum, known leaf = some datum → leaf.Takes datum)
  (holds : ∀ leaf, held root leaf = (known leaf).map (shown (origin leaf)))

include lodged takes holds

theorem logging_of_held (m : Machine) :
    ∃ logging, field (toLogSettings m) Settings.default.logging
        (Table.find "logging" root.entries) = .ok logging ∧
      Datum.text logging.level = (known .level).getD (Settings.default.at .level) ∧
      Datum.bool logging.json = (known .json).getD (Settings.default.at .json) := by
  have level := holds .level
  have json := holds .json
  simp only [held] at level json
  cases found : Table.find "logging" root.entries with
  | none =>
    rw [found] at level json
    have noLevel := Option.map_eq_none_iff.mp level.symm
    have noJson := Option.map_eq_none_iff.mp json.symm
    exact ⟨Settings.default.logging, rfl, by rw [noLevel]; rfl, by rw [noJson]; rfl⟩
  | some t =>
    obtain ⟨there, entries, rfl⟩ := lodged t found
    rw [found] at level json
    have level : Table.find "level" entries = _ := level
    have json : Table.find "json" entries = _ := json
    obtain ⟨text, readLevel, shownLevel⟩ := text_of_takes (takes .level)
      LogSettings.default.level "logging.level" (origin .level)
    obtain ⟨flag, readJson, shownJson⟩ := bool_of_takes (takes .json)
      LogSettings.default.json "logging.json" (origin .json)
    rw [← level] at readLevel
    rw [← json] at readJson
    exact ⟨⟨text, flag⟩, toLogSettings_of_fields m there readLevel readJson, shownLevel, shownJson⟩

-- Leaves of their types are read as they are, and the others are the defaults.
theorem toSettings_of_held (m : Machine) : ∃ s : Settings, root.toSettings m = .ok s ∧
    ∀ leaf, s.at leaf = (known leaf).getD (Settings.default.at leaf) := by
  obtain ⟨workers, readWorkers, shownWorkers⟩ := word_of_takes (takes .workers)
    Settings.default.workers "workers" (origin .workers)
  obtain ⟨timeout, readTimeout, shownTimeout⟩ := word_of_takes (takes .timeout)
    Settings.default.clientTimeoutMs "client_timeout_ms" (origin .timeout)
  obtain ⟨logging, readLogging, level, json⟩ := logging_of_held lodged takes holds m
  rw [← holds] at readWorkers readTimeout
  refine ⟨⟨workers, timeout, logging⟩,
    toSettings_of_fields readWorkers readTimeout readLogging, fun leaf => ?_⟩
  cases leaf with
  | workers => exact shownWorkers
  | timeout => exact shownTimeout
  | level => exact level
  | json => exact json

end Decoding

end Tree

-- The two layers together.

variable {m : Machine} {vars : Variables} {entries : List (String × Datum)}

theorem lodged_emptyTable : Tree.emptyTable.Lodged := by
  intro t found
  cases found

-- Of a layer that comes in any order, what is told of a leaf is what it says of it.
theorem told_layer {leaves : List (Leaf × Tree)} {layer : List (Leaf × Datum)} {origin : String}
    (perm : leaves.Perm (Tree.tagged origin layer)) (once : (layer.map (·.1)).Nodup)
    (known : Leaf → Option Tree) (leaf : Leaf) : told known leaves leaf =
      ((Table.find leaf layer).map (Tree.shown origin)).or (known leaf) := by
  have apart : ((Tree.tagged origin layer).map (·.1)).Nodup := by rwa [Tree.tagged, List.map_map]
  have others := (perm.map (·.1)).nodup_iff.mpr apart
  rw [told_eq others, Table.find_of_perm perm others, Tree.tagged, Table.find_map]

theorem held_merged (m : Machine) (path : String) (file : Datum.Plain entries) (env : vars.Plain) :
    (merged [fileEntries m path entries, vars.source m]).Lodged ∧ ∀ leaf,
      (merged [fileEntries m path entries, vars.source m]).held leaf =
        ((Table.find leaf vars.leaves).map (Tree.shown Variables.origin)).or
          ((Table.find leaf (Datum.leaves entries)).map (Tree.shown (Folder.tidy path))) := by
  have bare : Tree.emptyTable.held = fun _ => none := by
    funext leaf
    cases leaf <;> rfl
  obtain ⟨below, lodged⟩ :=
    Tree.held_laySource lodged_emptyTable (Tree.proper_fileEntries m path file)
  obtain ⟨above, lodged⟩ := Tree.held_laySource lodged (Variables.proper_source (m := m) env)
  refine ⟨lodged, fun leaf => (congrFun above leaf).trans ?_⟩
  rw [told_layer (Variables.leaves_source m env) env.layer.once, below,
    told_layer (Tree.leaves_fileEntries m path file) file.layer.once, bare, Option.or_none]

-- What the highest layer tells that tells something of the leaf.
def highest (vars : Variables) (entries : List (String × Datum)) (leaf : Leaf) : Datum :=
  ((Table.find leaf vars.leaves).or (Table.find leaf (Datum.leaves entries))).getD
    (Settings.default.at leaf)

theorem same_of_at {s t : Settings} (same : ∀ leaf, s.at leaf = t.at leaf) : s = t := by
  obtain ⟨workers, timeout, level, json⟩ := s
  obtain ⟨workers', timeout', level', json'⟩ := t
  cases same .workers
  cases same .timeout
  cases same .level
  cases same .json
  rfl

theorem toSettings_merged (m : Machine) (path : String) (file : Datum.Plain entries)
    (env : vars.Plain) : ∃ s : Settings,
      (merged [fileEntries m path entries, vars.source m]).toSettings m = .ok s ∧
        ∀ leaf, s.at leaf = highest vars entries leaf := by
  obtain ⟨lodged, held⟩ := held_merged m path file env
  let origin (leaf : Leaf) :=
    if (Table.find leaf vars.leaves).isSome then Variables.origin else Folder.tidy path
  let known (leaf : Leaf) :=
    (Table.find leaf vars.leaves).or (Table.find leaf (Datum.leaves entries))
  have takes : ∀ leaf datum, known leaf = some datum → leaf.Takes datum := by
    intro leaf datum found
    rcases Option.or_eq_some_iff.mp found with set | ⟨_, set⟩
    · exact env.layer.typed _ (Table.mem_of_find set)
    · exact file.layer.typed _ (Table.mem_of_find set)
  have holds : ∀ leaf, (merged [fileEntries m path entries, vars.source m]).held leaf =
      (known leaf).map (Tree.shown (origin leaf)) := by
    intro leaf
    rw [held leaf]
    simp only [known, origin]
    cases Table.find leaf vars.leaves <;> simp
  exact Tree.toSettings_of_held lodged takes holds m

-- The settings are the same in whatever order the maps are walked.
theorem decoded_leaves (path : String) (file : Datum.Plain entries) (env : vars.Plain) :
    ∃ s : Settings, (∀ leaf, s.at leaf = highest vars entries leaf) ∧ ∀ m,
      decoded m (merged [fileEntries m path entries, vars.source m]) =
        s.validate.map fun _ => s := by
  obtain ⟨s, _, shown⟩ := toSettings_merged .plain path file env
  refine ⟨s, shown, fun m => decoded_eq ?_⟩
  obtain ⟨t, read, alike⟩ := toSettings_merged m path file env
  rwa [same_of_at fun leaf => (shown leaf).trans (alike leaf).symm]

end Config

-- The check of settings, fault by fault.

namespace Settings

variable {s : Settings}

theorem refused_workers (workers : s.workers = 0) : s.validate =
    .error (.invalidValue "workers" "0" "at least one worker is required") := by
  rw [validate, if_pos workers, workers]
  rfl

theorem refused_timeout (workers : 1 ≤ s.workers) (timeout : s.clientTimeoutMs = 0) :
    s.validate = .error (.invalidValue "client_timeout_ms" "0"
      "pickup timeout must be at least 1ms") := by
  rw [validate, if_neg (Nat.ne_of_gt workers), if_pos timeout, timeout]
  rfl

theorem accepted (fit : s.Fit) : s.validate = .ok () := by
  obtain ⟨workers, timeout, c, there, seen⟩ := fit
  have some : Text.allBlank s.logging.level ≠ true := by
    intro blank
    rw [List.all_eq_true.mp blank c there] at seen
    cases seen
  rw [validate, if_neg (Nat.ne_of_gt workers), if_neg (Nat.ne_of_gt timeout),
    LogSettings.validate, if_neg some]

end Settings

namespace Config.Place

variable {m : Machine} {p : Place} {path : Option String} {vars : Option Variables}
  {entries : List (String × Datum)}

-- What the text of a JSON value says as a file.
theorem table?_text {folder : Folder} {path : String} {v : Json} (sound : v.Sound)
    (shallow : v.depth ≤ Datum.jsonDepth) (read : folder.read? path = some v.text)
    (format : Format.ofPath? path = some .json) (means : Datum.ofJson? v = some (.table entries)) :
    folder.table? (some path) = some entries := by
  simp [Folder.table?, read, format, Format.read?, Datum.readJson?_text sound shallow, means,
    Datum.entries?]

-- A place with one file.
def holding (v : Json) : Place := ⟨[], ⟨[("c.json", v.text)], []⟩⟩

theorem holding_said {v : Json} (sound : v.Sound) (shallow : v.depth ≤ Datum.jsonDepth)
    (means : Datum.ofJson? v = some (.table entries)) :
    (holding v).folder.table? (some "c.json") = some entries :=
  table?_text sound shallow rfl rfl means

end Config.Place

end Kitchen
