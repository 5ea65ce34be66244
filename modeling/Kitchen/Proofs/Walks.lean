import Kitchen.Config.Machine
import Kitchen.Proofs.Totals
import Mathlib.Data.List.Induction
import Mathlib.Data.List.Nodup

namespace Kitchen

namespace Table

variable {κ ν μ : Type} [DecidableEq κ] {key : κ} {entries done : List (κ × ν)}

theorem nodup_put (apart : (entries.map (·.1)).Nodup) (key : κ) (value : ν) :
    ((put key value entries).map (·.1)).Nodup :=
  nodup_insert (t := ⟨entries⟩) apart key value

theorem collect_concat (entries : List (κ × ν)) (entry : κ × ν) :
    collect (entries ++ [entry]) = put entry.1 entry.2 (collect entries) := by
  rw [collect, List.foldl_append]
  rfl

theorem nodup_collect (entries : List (κ × ν)) : ((collect entries).map (·.1)).Nodup := by
  induction entries using List.reverseRecOn with
  | nil => exact .nil
  | append_singleton before entry ih =>
    rw [collect_concat]
    exact nodup_put ih entry.1 entry.2

theorem mem_collect {entry : κ × ν} (there : entry ∈ collect entries) : entry ∈ entries := by
  induction entries using List.reverseRecOn with
  | nil => cases there
  | append_singleton before last ih =>
    rw [collect_concat] at there
    rcases mem_put there with old | rfl
    · exact List.mem_append_left _ (ih old)
    · exact List.mem_append_right _ (List.mem_singleton_self _)

theorem collect_of_nodup (once : (entries.map (·.1)).Nodup) : collect entries = entries := by
  induction entries using List.reverseRecOn with
  | nil => rfl
  | append_singleton before entry ih =>
    rw [List.map_append, List.nodup_append] at once
    obtain ⟨apart, _, new⟩ := once
    have missing : find entry.1 before = none := by
      rw [find_eq_none_iff]
      intro there
      exact new _ there _ (List.mem_singleton_self _) rfl
    rw [collect_concat, ih apart, put_new missing]

theorem put_map (change : κ → ν → μ) (key : κ) (value : ν) (entries : List (κ × ν)) :
    (put key value entries).map (fun e => (e.1, change e.1 e.2)) =
      put key (change key value) (entries.map fun e => (e.1, change e.1 e.2)) := by
  induction entries with
  | nil => rfl
  | cons e rest ih =>
    obtain ⟨k, v⟩ := e
    by_cases same : k = key
    · simp [put, same]
    · simp [put, same, ih]

theorem filter_put (keep : κ → Bool) (key : κ) (value : ν) (entries : List (κ × ν)) :
    (put key value entries).filter (fun e => keep e.1) =
      if keep key then put key value (entries.filter fun e => keep e.1)
      else entries.filter fun e => keep e.1 := by
  induction entries with
  | nil => cases kept : keep key <;> simp [put, kept]
  | cons e rest ih =>
    obtain ⟨k, v⟩ := e
    by_cases same : k = key
    · subst same
      cases kept : keep k <;> simp [put, kept]
    · cases kept : keep k <;> cases mine : keep key <;> simp [put, same, kept, mine, ih]

theorem filter_collect (keep : κ → Bool) (entries : List (κ × ν)) :
    (collect entries).filter (fun e => keep e.1) =
      collect (entries.filter fun e => keep e.1) := by
  induction entries using List.reverseRecOn with
  | nil => rfl
  | append_singleton before entry ih =>
    rw [collect_concat, filter_put, List.filter_append, ih]
    cases kept : keep entry.1 with
    | true => rw [List.filter_singleton, kept, if_pos rfl, cond_true, collect_concat]
    | false => simp [kept]

theorem flatMap_put {β : Type} (tells : κ × ν → List β) (value : ν)
    (quiet : find key done ≠ none → ∀ value, tells (key, value) = []) :
    (put key value done).flatMap tells = done.flatMap tells ++ tells (key, value) := by
  cases found : find key done with
  | none => simp [put_new found]
  | some old =>
    have silent := quiet (by simp [found])
    rw [silent, List.append_nil]
    clear quiet found
    induction done with
    | nil => simp [put, silent]
    | cons first rest ih =>
      obtain ⟨k, v⟩ := first
      by_cases same : k = key
      · simp [put, same, silent]
      · simp [put, same, ih]

-- Entries of one key that tell nothing may take each other's place.
theorem flatMap_collect {β : Type} {tells : κ × ν → List β}
    (quiet : entries.Pairwise fun a b => a.1 = b.1 → ∀ value, tells (a.1, value) = []) :
    (collect entries).flatMap tells = entries.flatMap tells := by
  induction entries using List.reverseRecOn with
  | nil => rfl
  | append_singleton before entry ih =>
    obtain ⟨quiet, _, last⟩ := List.pairwise_append.mp quiet
    rw [collect_concat, List.flatMap_append, ← ih quiet, List.flatMap_singleton]
    refine flatMap_put tells entry.2 fun found value => ?_
    obtain ⟨old, known⟩ := Option.ne_none_iff_exists'.mp found
    exact last _ (mem_collect (mem_of_find known)) entry (List.mem_singleton_self _) rfl value

end Table

namespace Config.Machine

variable {α : Type} {m : Machine} {place : List String} {entries others : List (String × α)}

theorem before_iff (a b : String) : m.before place a b = true ↔
    m.rank place a < m.rank place b ∨ m.rank place a = m.rank place b ∧ a ≤ b := by
  simp [before]

theorem before_total (a b : String) : (m.before place a b || m.before place b a) = true := by
  rw [Bool.or_eq_true, before_iff, before_iff]
  have least := String.le_total a b
  rcases Nat.lt_trichotomy (m.rank place a) (m.rank place b) with lt | same | gt
  · exact .inl (.inl lt)
  · exact least.imp (.inr ⟨same, ·⟩) (.inr ⟨same.symm, ·⟩)
  · exact .inr (.inl gt)

theorem before_trans (a b c : String) (first : m.before place a b = true)
    (second : m.before place b c = true) : m.before place a c = true := by
  rw [before_iff] at first second ⊢
  rcases first with lt | ⟨same, le⟩
  · rcases second with lt' | ⟨same', -⟩
    · exact .inl (Nat.lt_trans lt lt')
    · exact .inl (same' ▸ lt)
  · rcases second with lt' | ⟨same', le'⟩
    · exact .inl (same ▸ lt')
    · exact .inr ⟨same.trans same', String.le_trans le le'⟩

theorem before_antisymm {a b : String} (first : m.before place a b = true)
    (second : m.before place b a = true) : a = b := by
  rw [before_iff] at first second
  rcases first with lt | ⟨same, le⟩
  · omega
  · rcases second with lt' | ⟨_, le'⟩
    · omega
    · exact String.le_antisymm le le'

theorem walk_perm (m : Machine) (place : List String) (entries : List (String × α)) :
    (m.walk place entries).Perm entries := List.mergeSort_perm ..

@[simp] theorem mem_walk {entry : String × α} : entry ∈ m.walk place entries ↔ entry ∈ entries :=
  (m.walk_perm place entries).mem_iff

theorem walk_sorted (m : Machine) (place : List String) (entries : List (String × α)) :
    (m.walk place entries).Pairwise fun a b => m.before place a.1 b.1 = true :=
  List.pairwise_mergeSort (fun a b c => before_trans a.1 b.1 c.1)
    (fun a b => before_total a.1 b.1) entries

theorem walk_eq (perm : entries.Perm others) (once : (entries.map (·.1)).Nodup)
    (order : others.Pairwise fun a b => m.before place a.1 b.1 = true) :
    m.walk place entries = others := by
  have permuted := (m.walk_perm place entries).trans perm
  refine permuted.eq_of_pairwise (fun a b thereA thereB first second => ?_)
    (m.walk_sorted place entries) order
  exact List.inj_on_of_nodup_map once (mem_walk.mp thereA) (perm.mem_iff.mpr thereB)
    (before_antisymm first second)

theorem walk_of_perm (perm : entries.Perm others) (once : (entries.map (·.1)).Nodup) :
    m.walk place entries = m.walk place others :=
  walk_eq (perm.trans (m.walk_perm place others).symm) once (m.walk_sorted place others)

theorem filter_walk (keep : String × α → Bool) (once : (entries.map (·.1)).Nodup) :
    (m.walk place entries).filter keep = m.walk place (entries.filter keep) := by
  refine (walk_eq ((m.walk_perm place entries).filter keep).symm ?_ ?_).symm
  · exact once.sublist (List.filter_sublist.map _)
  · exact (m.walk_sorted place entries).filter keep

@[simp] theorem walk_nil : m.walk place ([] : List (String × α)) = [] := List.mergeSort_nil

@[simp] theorem walk_singleton (entry : String × α) : m.walk place [entry] = [entry] :=
  List.mergeSort_singleton entry

-- Walks these keys in their order, wherever they are.
def inOrder (keys : List String) : Machine := ⟨fun _ key => keys.idxOf key, plain.room⟩

-- Every order in which a map can be walked is that of some machine.
theorem walk_inOrder (place : List String) (perm : entries.Perm others)
    (once : (entries.map (·.1)).Nodup) :
    (inOrder (others.map (·.1))).walk place entries = others := by
  refine walk_eq perm once ?_
  have apart : (others.map (·.1)).Nodup := (perm.map (·.1)).nodup_iff.mp once
  have rank : ∀ i (low : i < others.length),
      (inOrder (others.map (·.1))).rank place others[i].1 = i := by
    intro i low
    have found := apart.idxOf_getElem i (by simpa using low)
    rwa [List.getElem_map] at found
  rw [List.pairwise_iff_getElem]
  intro i j low high lt
  rw [before_iff, rank i low, rank j high]
  exact .inl lt

end Config.Machine

end Kitchen
