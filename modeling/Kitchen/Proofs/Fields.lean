import Kitchen.Config.Shape
import Kitchen.Proofs.Walks
import Mathlib.Data.List.Pairwise

-- Settings read from the entries of a map. The order in which the map is walked decides no more
-- than which of several faults is told.

namespace Kitchen.Config.Tree

variable {σ α : Type} {start : σ} {l others : List (String × Except Mismatch (σ → σ))}
  {decode : Tree → Except Mismatch α} {set : α → σ → σ} {value : Option Tree} {e : Mismatch}
  {m n : Machine} {root t : Tree}

def Sound (l : List (String × Except Mismatch (σ → σ))) : Prop := ∀ c ∈ l, ∃ f, c.2 = .ok f

theorem changed_cons (start : σ) (first : String × Except Mismatch (σ → σ)) :
    changed start (first :: l) =
      (first.2.map (· start)).bind fun s => changed s l := by
  rw [changed, List.foldlM_cons]
  rfl

theorem fault_of_changed (failed : changed start l = .error e) : ∃ c ∈ l, c.2 = .error e := by
  induction l generalizing start with
  | nil => cases failed
  | cons first rest ih =>
    rw [changed_cons] at failed
    cases read : first.2 with
    | error fault =>
      rw [read] at failed
      cases failed
      exact ⟨first, List.mem_cons_self, read⟩
    | ok f =>
      rw [read] at failed
      obtain ⟨c, there, same⟩ := ih failed
      exact ⟨c, List.mem_cons_of_mem _ there, same⟩

theorem sound_of_changed {s : σ} (read : changed start l = .ok s) : Sound l := by
  induction l generalizing start with
  | nil => exact List.forall_mem_nil _
  | cons first rest ih =>
    rw [changed_cons] at read
    cases found : first.2 with
    | error fault =>
      rw [found] at read
      cases read
    | ok f =>
      rw [found] at read
      exact List.forall_mem_cons.mpr ⟨⟨f, found⟩, ih read⟩

-- What a change does, if it is none of the faulty ones.
def applied (s : σ) (c : String × Except Mismatch (σ → σ)) : σ :=
  match c.2 with
  | .ok f => f s
  | .error _ => s

theorem changed_of_sound (sound : Sound l) (start : σ) :
    changed start l = .ok (l.foldl applied start) := by
  induction l generalizing start with
  | nil => rfl
  | cons first rest ih =>
    obtain ⟨⟨f, read⟩, others⟩ := List.forall_mem_cons.mp sound
    have step : applied start first = f start := by rw [applied, read]
    rw [changed_cons, read, List.foldl_cons, step]
    exact ih others (f start)

-- Each of the changes is to a part of its own.
def Independent (l : List (String × Except Mismatch (σ → σ))) : Prop :=
  l.Pairwise fun a b => ∀ s, applied (applied s a) b = applied (applied s b) a

theorem changed_perm (perm : l.Perm others) (sound : Sound l) (independent : Independent l)
    (start : σ) : changed start l = changed start others := by
  have alike : Sound others := fun c there => sound c (perm.mem_iff.mpr there)
  have swap : ∀ a ∈ l, ∀ b ∈ l, ∀ s, applied (applied s a) b = applied (applied s b) a := by
    intro a thereA b thereB
    exact independent.forall_of_forall_of_flip (fun _ _ _ => rfl)
      (independent.imp fun swap s => (swap s).symm) thereA thereB
  rw [changed_of_sound sound, changed_of_sound alike]
  exact congrArg _ (perm.foldl_eq' (fun a thereA b thereB s => swap a thereA b thereB s) start)

theorem change_error {t : Tree} (set : α → σ → σ) (failed : decode t = .error e) :
    change decode set (some t) = .error e := by
  rw [change, failed]
  rfl

theorem applied_change (key : String) (decode : Tree → Except Mismatch α) (set : α → σ → σ)
    (value : Option Tree) : (∀ s, applied s (key, change decode set value) = s) ∨
      ∃ a, ∀ s, applied s (key, change decode set value) = set a s := by
  cases value with
  | none => exact .inl fun _ => rfl
  | some t =>
    cases read : decode t with
    | error => exact .inl fun s => by simp [applied, change, read, Except.map]
    | ok a => exact .inr ⟨a, fun s => by simp [applied, change, read, Except.map]⟩

-- Changes to two different parts may come in either order.
theorem applied_comm {β : Type} (key other : String) (decode' : Tree → Except Mismatch β)
    (set' : β → σ → σ) (value' : Option Tree)
    (apart : ∀ a b s, set a (set' b s) = set' b (set a s)) (s : σ) :
    applied (applied s (key, change decode set value)) (other, change decode' set' value') =
      applied (applied s (other, change decode' set' value')) (key, change decode set value) := by
  rcases applied_change key decode set value with none | ⟨a, some⟩ <;>
    rcases applied_change other decode' set' value' with none' | ⟨b, some'⟩
  · simp only [none, none']
  · simp only [none, some']
  · simp only [some, none']
  · simp only [some, some', apart]

theorem independent_log (level json : String) (first second : Option Tree) :
    Independent (logChanges level json first second) := by
  refine .cons ?_ (.cons (List.forall_mem_nil _) .nil)
  simp only [List.forall_mem_cons]
  exact ⟨applied_comm _ _ _ _ _ fun _ _ _ => rfl, List.forall_mem_nil _⟩

theorem independent_changes (m : Machine) (root : Tree) : Independent (changes m root) := by
  refine .cons ?_ (.cons ?_ (.cons (List.forall_mem_nil _) .nil))
  · simp only [List.forall_mem_cons]
    exact ⟨applied_comm _ _ _ _ _ fun _ _ _ => rfl, applied_comm _ _ _ _ _ fun _ _ _ => rfl,
      List.forall_mem_nil _⟩
  · simp only [List.forall_mem_cons]
    exact ⟨applied_comm _ _ _ _ _ fun _ _ _ => rfl, List.forall_mem_nil _⟩

-- Without a fault the order is of no account.
theorem changed_walk (m : Machine) (place : List String) (sound : Sound l)
    (independent : Independent l) (start : σ) :
    changed start (m.walk place l) = changed start l :=
  (changed_perm (m.walk_perm place l).symm sound independent start).symm

theorem sound_of_walk {place : List String} (sound : Sound (m.walk place l)) : Sound l :=
  fun c there => sound c (Machine.mem_walk.mpr there)

theorem toLogSettings_steady {s : LogSettings} (read : toLogSettings m t = .ok s) (n : Machine) :
    toLogSettings n t = .ok s := by
  cases t with
  | scalar | array => exact read
  | table origin entries =>
    have sound := sound_of_walk (sound_of_changed read)
    have independent := independent_log "logging.level" "logging.json"
      (Table.find "level" entries) (Table.find "json" entries)
    rw [toLogSettings, changed_walk _ _ sound independent] at read ⊢
    exact read

theorem changes_steady (sound : Sound (changes m root)) (n : Machine) :
    changes n root = changes m root := by
  have logging := sound _ (.tail _ (.tail _ (.head _)))
  cases found : Table.find "logging" root.entries with
  | none => simp only [changes, found, change]
  | some t =>
    obtain ⟨f, read⟩ := logging
    simp only [found, change] at read
    cases decoded : toLogSettings m t with
    | error => simp [decoded, Except.map] at read
    | ok s => simp only [changes, found, change, decoded, toLogSettings_steady decoded n]

theorem toSettings_steady {s : Settings} (read : root.toSettings m = .ok s) (n : Machine) :
    root.toSettings n = .ok s := by
  have sound := sound_of_walk (sound_of_changed read)
  have same := changes_steady sound n
  rw [toSettings, changed_walk _ _ sound (independent_changes m root)] at read
  rw [toSettings, changed_walk _ _ (same ▸ sound) (independent_changes n root), same]
  exact read

def field (decode : Tree → Except Mismatch α) (default : α) (value : Option Tree) :
    Except Mismatch α :=
  match value with
  | some t => decode t
  | none => .ok default

theorem change_of_field {default a : α} (set : α → σ → σ) (key : String)
    (read : field decode default value = .ok a) : ∃ f, change decode set value = .ok f ∧
      ∀ s, set default s = s → applied s (key, change decode set value) = set a s := by
  cases value with
  | none =>
    cases read
    exact ⟨id, rfl, fun s own => own.symm⟩
  | some t =>
    have read : decode t = .ok a := read
    exact ⟨set a, by rw [change, read]; rfl, fun s _ => by simp [applied, change, read, Except.map]⟩

theorem toLogSettings_of_fields (m : Machine) (origin : Option String) {entries : Entries}
    {level : String} {json : Bool}
    (readLevel : field (toText "logging.level") LogSettings.default.level
      (Table.find "level" entries) = .ok level)
    (readJson : field (toBool "logging.json") LogSettings.default.json
      (Table.find "json" entries) = .ok json) :
    toLogSettings m (.table origin entries) = .ok ⟨level, json⟩ := by
  obtain ⟨f, first, setLevel⟩ :=
    change_of_field (fun level (s : LogSettings) => { s with level }) "level" readLevel
  obtain ⟨g, second, setJson⟩ :=
    change_of_field (fun json (s : LogSettings) => { s with json }) "json" readJson
  have sound : Sound (logChanges "logging.level" "logging.json" (Table.find "level" entries)
      (Table.find "json" entries)) := by
    simp only [logChanges, Sound, List.forall_mem_cons]
    exact ⟨⟨f, first⟩, ⟨g, second⟩, List.forall_mem_nil _⟩
  rw [toLogSettings, changed_walk _ _ sound (independent_log ..), changed_of_sound sound]
  simp only [logChanges, List.foldl_cons, List.foldl_nil]
  rw [setLevel _ rfl, setJson _ rfl]

theorem toSettings_of_fields {workers timeout : Nat} {logging : LogSettings}
    (readWorkers : field (toWord "workers") Settings.default.workers
      (Table.find "workers" root.entries) = .ok workers)
    (readTimeout : field (toWord "client_timeout_ms") Settings.default.clientTimeoutMs
      (Table.find "client_timeout_ms" root.entries) = .ok timeout)
    (readLogging : field (toLogSettings m) Settings.default.logging
      (Table.find "logging" root.entries) = .ok logging) :
    root.toSettings m = .ok ⟨workers, timeout, logging⟩ := by
  obtain ⟨f, first, setWorkers⟩ :=
    change_of_field (fun workers (s : Settings) => { s with workers }) "workers" readWorkers
  obtain ⟨g, second, setTimeout⟩ :=
    change_of_field (fun clientTimeoutMs (s : Settings) => { s with clientTimeoutMs })
      "client_timeout_ms" readTimeout
  obtain ⟨h, third, setLogging⟩ :=
    change_of_field (fun logging (s : Settings) => { s with logging }) "logging" readLogging
  have sound : Sound (changes m root) := by
    simp only [changes, Sound, List.forall_mem_cons]
    exact ⟨⟨f, first⟩, ⟨g, second⟩, ⟨h, third⟩, List.forall_mem_nil _⟩
  rw [toSettings, changed_walk _ _ sound (independent_changes m root), changed_of_sound sound]
  simp only [changes, List.foldl_cons, List.foldl_nil]
  rw [setWorkers _ rfl, setTimeout _ rfl, setLogging _ rfl]

-- The places in which a fault can be.
inductive Spot where
  | workers
  | timeout
  | logging
  | level
  | json
  | first
  | second
deriving DecidableEq

def Spot.key : Spot → Option String
  | workers => "workers"
  | timeout => "client_timeout_ms"
  | logging => none
  | level => "logging.level"
  | json => "logging.json"
  | first => "logging[0]"
  | second => "logging[1]"

theorem Spot.key_inj {a b : Spot} (same : a.key = b.key) : a = b := by
  cases a <;> cases b <;> first | rfl | exact absurd same (by decide)

def refusal? (decode : Tree → Except Mismatch α) (value : Option Tree) : Option Mismatch :=
  match value.map decode with
  | some (.error e) => some e
  | _ => none

-- What is wrong in a place.
def fault? (root : Tree) (spot : Spot) : Option Mismatch :=
  match spot, Table.find "logging" root.entries with
  | .workers, _ => refusal? (toWord "workers") (Table.find "workers" root.entries)
  | .timeout, _ =>
    refusal? (toWord "client_timeout_ms") (Table.find "client_timeout_ms" root.entries)
  | .logging, some (.scalar _ value) => some ⟨foundScalar value, .logging, none, none⟩
  | .level, some (.table _ entries) =>
    refusal? (toText "logging.level") (Table.find "level" entries)
  | .json, some (.table _ entries) => refusal? (toBool "logging.json") (Table.find "json" entries)
  | .first, some (.array _ items) => refusal? (toText "logging[0]") items[0]?
  | .second, some (.array _ items) => refusal? (toBool "logging[1]") items[1]?
  | _, _ => none

theorem toWord_key {key : String} (read : toWord key t = .error e) : e.key = key := by
  cases t with
  | array | table =>
    cases read
    rfl
  | scalar origin value =>
    cases value with
    | null =>
      cases read
      rfl
    | bool | real => cases read
    | int i =>
      unfold toWord at read
      simp only at read
      split at read
      · cases read
      · cases read
        rfl
    | text text =>
      unfold toWord at read
      simp only at read
      split at read
      · cases read
      · cases read
        rfl

theorem toText_key {key : String} (read : toText key t = .error e) : e.key = key := by
  cases t with
  | array | table =>
    cases read
    rfl
  | scalar origin value =>
    cases value with
    | null =>
      cases read
      rfl
    | bool | real | int | text => cases read

theorem toBool_key {key : String} (read : toBool key t = .error e) : e.key = key := by
  cases t with
  | array | table =>
    cases read
    rfl
  | scalar origin value =>
    cases value with
    | null =>
      cases read
      rfl
    | bool | real | int => cases read
    | text text =>
      unfold toBool at read
      simp only at read
      split at read
      · cases read
      · cases read
        rfl

theorem refusal_of_change (refused : change decode set value = .error e) :
    refusal? decode value = some e ∧ ∃ t, value = some t ∧ decode t = .error e := by
  cases value with
  | none => cases refused
  | some t =>
    cases read : decode t with
    | ok => simp [change, read, Except.map] at refused
    | error fault =>
      simp only [change, read, Except.map, Except.error.injEq] at refused
      subst refused
      exact ⟨by simp [refusal?, read], t, rfl, read⟩

-- A refusal tells what is wrong in the place of its key.
theorem fault_of_toSettings (refused : root.toSettings m = .error e) :
    ∃ spot, spot.key = e.key ∧ root.fault? spot = some e := by
  obtain ⟨c, there, failed⟩ := fault_of_changed refused
  rw [Machine.mem_walk] at there
  simp only [changes, List.mem_cons, List.not_mem_nil, or_false] at there
  rcases there with rfl | rfl | rfl
  · obtain ⟨fault, t, _, read⟩ := refusal_of_change failed
    exact ⟨.workers, (toWord_key read).symm, fault⟩
  · obtain ⟨fault, t, _, read⟩ := refusal_of_change failed
    exact ⟨.timeout, (toWord_key read).symm, fault⟩
  · obtain ⟨_, t, found, read⟩ := refusal_of_change failed
    cases t with
    | scalar origin value =>
      cases read
      exact ⟨.logging, rfl, by simp [fault?, found]⟩
    | array origin items =>
      obtain ⟨c, there, failed⟩ := fault_of_changed read
      simp only [logChanges, List.mem_cons, List.not_mem_nil, or_false] at there
      rcases there with rfl | rfl
      · obtain ⟨fault, t, _, read⟩ := refusal_of_change failed
        exact ⟨.first, (toText_key read).symm, by simp [fault?, found, fault]⟩
      · obtain ⟨fault, t, _, read⟩ := refusal_of_change failed
        exact ⟨.second, (toBool_key read).symm, by simp [fault?, found, fault]⟩
    | table origin entries =>
      obtain ⟨c, there, failed⟩ := fault_of_changed read
      rw [Machine.mem_walk] at there
      simp only [logChanges, List.mem_cons, List.not_mem_nil, or_false] at there
      rcases there with rfl | rfl
      · obtain ⟨fault, t, _, read⟩ := refusal_of_change failed
        exact ⟨.level, (toText_key read).symm, by simp [fault?, found, fault]⟩
      · obtain ⟨fault, t, _, read⟩ := refusal_of_change failed
        exact ⟨.json, (toBool_key read).symm, by simp [fault?, found, fault]⟩

-- On two machines a tree gives the same settings, or is refused on both: for one and the same fault
-- or for faults with two different keys.
theorem toSettings_machines (m n : Machine) (root : Tree) :
    root.toSettings m = root.toSettings n ∨ ∃ e f : Mismatch, e.key ≠ f.key ∧
      root.toSettings m = .error e ∧ root.toSettings n = .error f := by
  cases first : root.toSettings m with
  | ok s => exact .inl (toSettings_steady first n).symm
  | error e =>
    cases second : root.toSettings n with
    | ok s =>
      rw [toSettings_steady second m] at first
      cases first
    | error f =>
      by_cases same : e.key = f.key
      · obtain ⟨spot, mine, fault⟩ := fault_of_toSettings first
        obtain ⟨other, its, fault'⟩ := fault_of_toSettings second
        have here : spot = other := Spot.key_inj (mine.trans (same.trans its.symm))
        subst here
        rw [fault] at fault'
        cases fault'
        exact .inl rfl
      · exact .inr ⟨e, f, same, rfl, rfl⟩

end Kitchen.Config.Tree
