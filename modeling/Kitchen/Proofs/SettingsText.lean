import Kitchen.Encoding.Settings
import Kitchen.Proofs.JsonText
import Kitchen.Proofs.Layers
import Kitchen.Proofs.Records

namespace Kitchen

open Encoding

namespace LogSettings

variable {s : LogSettings} {keep : String → Bool} {members : List (String × Json)}

def fields (s : LogSettings) : List (String × Json) := [("level", .str s.level), ("json", .bool s.json)]

-- The settings with the defaults of the fields that are not kept.
def pruned (s : LogSettings) (keep : String → Bool) : LogSettings :=
  ⟨if keep "level" then s.level else default.level, if keep "json" then s.json else default.json⟩

theorem ofJson?_rearranged (rearranged : Rearranged s.fields keep members) :
    ofJson? (.obj members) = some (s.pruned keep) := by
  have once : (s.fields.map (·.1)).Nodup := by
    rw [fields]
    simp
  have found : fields? ["level", "json"] (.obj members) =
      some [if keep "level" then some (.str s.level) else none,
        if keep "json" then some (.bool s.json) else none] := fields?_rearranged once rearranged
  have readLevel := optional_kept (rfl : Json.string? (.str s.level) = some s.level) default.level
    (keep "level")
  have readJson := optional_kept (rfl : Json.bool? (.bool s.json) = some s.json) default.json
    (keep "json")
  simp only [ofJson?, found, Option.bind_eq_bind, Option.bind_some, readLevel, readJson]
  rfl

end LogSettings

namespace Settings

variable {s : Settings} {keep inside : String → Bool} {members : List (String × Json)}
  {logging : Json} {log : LogSettings}

def fields (s : Settings) (logging : Json) : List (String × Json) :=
  [("workers", .ofNat s.workers), ("client_timeout_ms", .ofNat s.clientTimeoutMs),
    ("logging", logging)]

def pruned (s : Settings) (keep inside : String → Bool) : Settings :=
  ⟨if keep "workers" then s.workers else default.workers,
    if keep "client_timeout_ms" then s.clientTimeoutMs else default.clientTimeoutMs,
    if keep "logging" then s.logging.pruned inside else default.logging⟩

def toArray (s : Settings) : Json :=
  .arr [.ofNat s.workers, .ofNat s.clientTimeoutMs, .arr [.str s.logging.level, .bool s.logging.json]]

def ofText? (text : String) : Option Settings := (Json.parse? text).bind ofJson?

def Words (s : Settings) : Prop := s.workers ≤ maxWord ∧ s.clientTimeoutMs ≤ maxWord

theorem ofJson?_rearranged (words : s.Words)
    (reads : LogSettings.ofJson? logging = some (s.logging.pruned inside))
    (rearranged : Rearranged (s.fields logging) keep members) :
    ofJson? (.obj members) = some (s.pruned keep inside) := by
  have once : ((s.fields logging).map (·.1)).Nodup := by
    rw [fields]
    simp
  have found : fields? ["workers", "client_timeout_ms", "logging"] (.obj members) =
      some [if keep "workers" then some (.ofNat s.workers) else none,
        if keep "client_timeout_ms" then some (.ofNat s.clientTimeoutMs) else none,
        if keep "logging" then some logging else none] := fields?_rearranged once rearranged
  have readWorkers := optional_kept (word?_ofNat words.1) default.workers (keep "workers")
  have readTimeout :=
    optional_kept (word?_ofNat words.2) default.clientTimeoutMs (keep "client_timeout_ms")
  have readLog := optional_kept reads default.logging (keep "logging")
  simp only [ofJson?, found, Option.bind_eq_bind, Option.bind_some, readWorkers, readTimeout,
    readLog]
  rfl

theorem sound_toJson (s : Settings) : s.toJson.Sound := by
  simp [toJson, LogSettings.toJson, Json.Sound, Json.SoundMembers, Json.ofNat, Numeral.ofNat]

theorem sound_toArray (s : Settings) : s.toArray.Sound := by
  simp [toArray, Json.Sound, Json.SoundItems, Json.ofNat, Numeral.ofNat]

theorem ofJson?_toArray (words : s.Words) : ofJson? s.toArray = some s := by
  have logging : LogSettings.ofJson? (.arr [.str s.logging.level, .bool s.logging.json]) =
      some s.logging := rfl
  have workers := word?_ofNat words.1
  have timeout := word?_ofNat words.2
  have read : ofJson? s.toArray = (word? (.ofNat s.workers)).bind fun workers =>
      (word? (.ofNat s.clientTimeoutMs)).bind fun timeout =>
        (LogSettings.ofJson? (.arr [.str s.logging.level, .bool s.logging.json])).bind fun logging =>
          some ⟨workers, timeout, logging⟩ := rfl
  rw [read, workers, timeout, logging]
  rfl

end Settings

-- The same text as a file.

namespace Config

namespace Datum

-- What the text of settings says as a file.
def ofSettings (s : Settings) : List (String × Datum) :=
  [("workers", .int s.workers), ("client_timeout_ms", .int s.clientTimeoutMs),
    ("logging", .table [("level", .text s.logging.level), ("json", .bool s.logging.json)])]

theorem ofJson?_settings {s : Settings} (workers : (s.workers : Int) ≤ Number.maxInt)
    (timeout : (s.clientTimeoutMs : Int) ≤ Number.maxInt) :
    ofJson? s.toJson = some (.table (ofSettings s)) := by
  simp [Settings.toJson, LogSettings.toJson, ofSettings, ofJson?, ofJsonMembers?, Json.ofNat,
    ofNumeral?_ofNat workers, ofNumeral?_ofNat timeout]

theorem shallow_toJson (s : Settings) : s.toJson.depth ≤ jsonDepth := by
  simp [Settings.toJson, LogSettings.toJson, Json.depth, Json.depthMembers, Json.ofNat, jsonDepth]

theorem leads_roots :
    Path.parse? (Text.lower "workers") = some Leaf.workers.path ∧
      Path.parse? (Text.lower "client_timeout_ms") = some Leaf.timeout.path ∧
      Path.parse? (Text.lower "logging") = some Leaf.logging := ⟨rfl, rfl, rfl⟩

theorem collect_ofSettings (s : Settings) : Table.collect (ofSettings s) = ofSettings s :=
  Table.collect_of_nodup (by simp [ofSettings])

theorem leaves_ofSettings (s : Settings) : leaves (ofSettings s) =
    [(.workers, .int s.workers), (.timeout, .int s.clientTimeoutMs),
      (.level, .text s.logging.level), (.json, .bool s.logging.json)] := by
  obtain ⟨workers, timeout, logging⟩ := leads_roots
  have apart : Leaf.timeout.path ≠ Leaf.logging ∧ Leaf.workers.path ≠ Leaf.logging :=
    ⟨Leaf.path_ne_logging _, Leaf.path_ne_logging _⟩
  have inner : Table.collect [("level", text s.logging.level), ("json", bool s.logging.json)] =
      [("level", text s.logging.level), ("json", bool s.logging.json)] :=
    Table.collect_of_nodup (by simp)
  have json : Leaf.within? (Text.lower "json") = some .json := rfl
  have level : Leaf.within? (Text.lower "level") = some .level := rfl
  rw [leaves, collect_ofSettings]
  simp [ofSettings, leavesAt, timeout, logging, workers, apart, Leaf.ofPath?_path, Datum.entries?,
    inner, inSmall, Leaf.inside, json, level]

theorem plain_ofSettings (s : Settings) : Plain (ofSettings s) where
  layer := by
    rw [leaves_ofSettings]
    refine ⟨by simp, ?_⟩
    simp only [List.forall_mem_cons]
    exact ⟨⟨_, rfl⟩, ⟨_, rfl⟩, ⟨_, rfl⟩, ⟨_, rfl⟩, nofun⟩
  proper := by
    obtain ⟨workers, timeout, logging⟩ := leads_roots
    rw [collect_ofSettings]
    simp only [ofSettings, List.forall_mem_cons, LeadsTo]
    refine ⟨fun path leads => ?_, fun path leads => ?_, fun path leads => ?_, nofun⟩
    · rw [workers] at leads
      exact .inr (.inl ⟨.workers, (Option.some.inj leads).symm⟩)
    · rw [timeout] at leads
      exact .inr (.inl ⟨.timeout, (Option.some.inj leads).symm⟩)
    · rw [logging] at leads
      exact .inr (.inr ⟨(Option.some.inj leads).symm, _, rfl⟩)

-- None of the keys leads into an array.
theorem within_ofSettings (room : Nat) (s : Settings) : Within room (ofSettings s) [] where
  file := by
    simp only [ofSettings, List.forall_mem_cons]
    exact ⟨nofun, nofun, nofun, nofun⟩
  env := nofun

end Datum

namespace Place

open Datum (ofSettings)

variable {s t : Settings} {p : Place} {path : String}

theorem highest_ofSettings (s : Settings) (leaf : Leaf) :
    highest [] (ofSettings s) leaf = s.at leaf := by
  rw [highest, Datum.leaves_ofSettings]
  cases leaf <;> rfl

theorem plain_nil : Variables.Plain [] := ⟨⟨.nil, nofun⟩, nofun⟩

theorem load_settings {vars : Option Variables} (fit : s.Fit)
    (workers : (s.workers : Int) ≤ Number.maxInt)
    (timeout : (s.clientTimeoutMs : Int) ≤ Number.maxInt) (silent : vars.getD p.vars = [])
    (read : p.folder.read? path = some s.toJson.text) (format : Format.ofPath? path = some .json)
    (m : Machine) : p.loadOn m (.layered (some path) vars) =
      some (.ok ⟨s, p.vars.environmentName, some path⟩) := by
  obtain ⟨t, shown, decoded⟩ := decoded_leaves path (Datum.plain_ofSettings s) plain_nil
  have same : t = s := same_of_at fun leaf => (shown leaf).trans (highest_ofSettings s leaf)
  have said := table?_text s.sound_toJson (Datum.shallow_toJson s) read format
    (Datum.ofJson?_settings workers timeout)
  have within := Datum.within_ofSettings m.room s
  rw [← silent] at within
  rw [loadOn, layered_within said within, silent, Option.getD_some, decoded, same,
    Settings.accepted fit]
  rfl

end Place

-- Settings come back from their text and from the array of their fields, and from the text of an
-- object that is missing some of the fields with the defaults of these, whatever their order and
-- whatever else is in it. As a file, the text gives the same settings, whatever the machine.
theorem settings_survive_text (c : Settings) (words : c.Words) :
    Settings.ofText? c.toJson.text = some c ∧
    Settings.ofText? c.toArray.text = some c ∧
    (∀ keep inside logging members text, Rearranged c.logging.fields inside logging →
      Rearranged (c.fields (.obj logging)) keep members →
        Json.parse? text = some (.obj members) →
          Settings.ofText? text = some (c.pruned keep inside)) ∧
    (c.Fit → (c.workers : Int) ≤ Number.maxInt → (c.clientTimeoutMs : Int) ≤ Number.maxInt →
      ∀ (p : Place) path vars, vars.getD p.vars = [] → p.folder.read? path = some c.toJson.text →
        Format.ofPath? path = some .json →
          p.load (.layered (some path) vars) = .ok ⟨c, p.vars.environmentName, some path⟩ ∧
            ∀ m, p.loadOn m (.layered (some path) vars) =
              some (.ok ⟨c, p.vars.environmentName, some path⟩)) := by
  have rearranged : ∀ keep inside logging members text, Rearranged c.logging.fields inside logging →
      Rearranged (c.fields (.obj logging)) keep members →
        Json.parse? text = some (.obj members) →
          Settings.ofText? text = some (c.pruned keep inside) := by
    intro keep inside logging members text within around read
    rw [Settings.ofText?, read, Option.bind_some]
    exact Settings.ofJson?_rearranged words (LogSettings.ofJson?_rearranged within) around
  refine ⟨?_, ?_, rearranged, ?_⟩
  · have whole : ∀ fields : List (String × Json), Rearranged fields (fun _ => true) fields := by
      intro fields
      exact ⟨[], by simp, nofun⟩
    exact rearranged (fun _ => true) (fun _ => true) c.logging.fields _ _ (whole _) (whole _)
      (Json.parse?_text c.sound_toJson)
  · rw [Settings.ofText?, Json.parse?_text c.sound_toArray, Option.bind_some]
    exact Settings.ofJson?_toArray words
  · intro fit workers timeout p path vars silent read format
    have loaded := Place.load_settings fit workers timeout silent read format
    refine ⟨?_, loaded⟩
    rw [Place.load, loaded, Option.getD_some]

-- Settings of which the number of workers and the level are left out, in another order and with
-- something unknown among them; and the whole as a file.
def seventy : Settings := ⟨2, 70, ⟨"warn", true⟩⟩

def scattered : List (String × Json) :=
  [("logging", .obj [("json", .bool true)]), ("color", .arr []), ("client_timeout_ms", .ofNat 70)]

theorem scattered_rearranged : Rearranged seventy.logging.fields (· ≠ "level") [("json", .bool true)] ∧
    Rearranged (seventy.fields (.obj [("json", .bool true)])) (· ≠ "workers") scattered := by
  refine ⟨⟨[], ?_, nofun⟩, [("color", .arr [])], ?_, ?_⟩
  · simp [seventy, LogSettings.fields]
  · have turned : ([("logging", Json.obj [("json", Json.bool true)]), ("color", Json.arr [])] ++
        [("client_timeout_ms", Json.ofNat 70)]).Perm _ := List.perm_append_comm
    simpa [seventy, Settings.fields, scattered] using turned
  · simp [Settings.fields]

theorem seventy_survives :
    seventy.Words ∧ seventy.Fit ∧
      Settings.ofText? (Json.obj scattered).text = some ⟨4, 70, ⟨"info", true⟩⟩ ∧
      (Place.holding seventy.toJson).load (.layered (some "c.json") none) =
        .ok ⟨seventy, "development", some "c.json"⟩ := by
  have words : seventy.Words := ⟨by decide, by decide⟩
  have fit : seventy.Fit := ⟨by decide, by decide, 'w', by decide, by decide⟩
  have sound : (Json.obj scattered).Sound := by
    simp [scattered, Json.Sound, Json.SoundMembers, Json.SoundItems, Json.ofNat, Numeral.ofNat]
  obtain ⟨within, around⟩ := scattered_rearranged
  obtain ⟨_, _, partly, file⟩ := settings_survive_text seventy words
  refine ⟨words, fit, ?_, ?_⟩
  · exact partly _ _ _ _ _ within around (Json.parse?_text sound)
  · exact (file fit (by decide) (by decide) _ "c.json" none rfl rfl rfl).1

end Config

end Kitchen
