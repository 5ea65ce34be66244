import Kitchen.Number.Total
import Kitchen.Table

-- How a total changes when one entry of a list or of a table does, and totals as counts; what a look-up
-- in a table has to do with its entries.

namespace Kitchen

variable {α κ ν : Type} {f g : α → Nat} {l : List α} {i : Nat} {a b : α}

theorem total_set (here : l[i]? = some a) (b : α) :
    total ((l.set i b).map f) + f a = total (l.map f) + f b := by
  induction l generalizing i with
  | nil => cases here
  | cons first rest ih =>
    cases i with
    | zero =>
      cases here
      simp only [List.set_cons_zero, List.map_cons, total]
      omega
    | succ i =>
      have later := ih (i := i) (by simpa using here)
      simp only [List.set_cons_succ, List.map_cons, total]
      omega

theorem le_total (member : a ∈ l) : f a ≤ total (l.map f) := by
  induction l with
  | nil => cases member
  | cons first rest ih =>
    simp only [List.map_cons, total]
    rcases List.mem_cons.mp member with rfl | later
    · omega
    · have := ih later
      omega

theorem total_mono (below : ∀ a ∈ l, f a ≤ g a) : total (l.map f) ≤ total (l.map g) := by
  induction l with
  | nil => exact Nat.le_refl _
  | cons first rest ih =>
    have here := below first (by simp)
    have later := ih fun a member => below a (List.mem_cons_of_mem _ member)
    simp only [List.map_cons, total]
    omega

theorem total_add (f g : α → Nat) (l : List α) :
    total (l.map fun a => f a + g a) = total (l.map f) + total (l.map g) := by
  induction l with
  | nil => rfl
  | cons first rest ih =>
    simp only [List.map_cons, total, ih]
    omega

theorem total_append (numbers more : List Nat) :
    total (numbers ++ more) = total numbers + total more := by
  induction numbers with
  | nil => exact (Nat.zero_add _).symm
  | cons first rest ih =>
    rw [List.cons_append, total, total, ih]
    omega

theorem total_one (l : List α) : total (l.map fun _ => 1) = l.length := by
  induction l with
  | nil => rfl
  | cons first rest ih =>
    simp only [List.map_cons, total, ih, List.length_cons]
    omega

theorem total_eq_zero (zero : ∀ a ∈ l, f a = 0) : total (l.map f) = 0 := by
  induction l with
  | nil => rfl
  | cons first rest ih =>
    simp only [List.map_cons, total, zero first (by simp),
      ih fun a member => zero a (List.mem_cons_of_mem _ member)]

theorem exists_of_total_pos (pos : 0 < total (l.map f)) : ∃ a ∈ l, 0 < f a := by
  induction l with
  | nil => cases pos
  | cons first rest ih =>
    by_cases here : 0 < f first
    · exact ⟨first, by simp, here⟩
    · simp only [List.map_cons, total] at pos
      obtain ⟨a, member, positive⟩ := ih (by omega)
      exact ⟨a, List.mem_cons_of_mem _ member, positive⟩

theorem count_flatMap_total [BEq α] {β : Type} (x : α) (f : β → List α) (l : List β) :
    (l.flatMap f).count x = total (l.map fun b => (f b).count x) := by
  induction l with
  | nil => rfl
  | cons first rest ih => simp [List.flatMap_cons, List.count_append, total, ih]

theorem length_flatMap_total {β : Type} (f : β → List α) (l : List β) :
    (l.flatMap f).length = total (l.map fun b => (f b).length) := by
  induction l with
  | nil => rfl
  | cons first rest ih => simp [List.flatMap_cons, total, ih]

namespace Table

variable [DecidableEq κ] {key : κ} {old : ν} {entries : List (κ × ν)} {t : Table κ ν}

def sum (t : Table κ ν) (weight : κ × ν → Nat) : Nat := total (t.entries.map weight)

theorem find_eq_none_iff : find key entries = none ↔ key ∉ entries.map (·.1) := by
  induction entries with
  | nil => simp [find]
  | cons e rest ih =>
    obtain ⟨k, v⟩ := e
    by_cases same : k = key
    · simp [find, same]
    · simp [find, same, ih, Ne.symm same]

theorem find_map {μ : Type} (change : ν → μ) (key : κ) (entries : List (κ × ν)) :
    find key (entries.map fun e => (e.1, change e.2)) = (find key entries).map change := by
  induction entries with
  | nil => rfl
  | cons e rest ih =>
    obtain ⟨k, v⟩ := e
    by_cases same : k = key
    · simp [find, same]
    · simp [find, same, ih]

theorem mem_of_find {value : ν} (found : find key entries = some value) :
    (key, value) ∈ entries := by
  induction entries with
  | nil => cases found
  | cons e rest ih =>
    obtain ⟨k, v⟩ := e
    by_cases same : k = key
    · simp only [find, same, if_true, Option.some.injEq] at found
      simp [same, found]
    · simp only [find, same, if_false] at found
      exact List.mem_cons_of_mem _ (ih found)

theorem put_new (missing : find key entries = none) (value : ν) :
    put key value entries = entries ++ [(key, value)] := by
  induction entries with
  | nil => rfl
  | cons e rest ih =>
    obtain ⟨k, v⟩ := e
    by_cases same : k = key
    · simp [find, same] at missing
    · simp only [find, same, if_false] at missing
      simp [put, same, ih missing]

theorem mem_put {value : ν} {entry : κ × ν} (there : entry ∈ put key value entries) :
    entry ∈ entries ∨ entry = (key, value) := by
  induction entries with
  | nil => exact .inr (List.mem_singleton.mp there)
  | cons e rest ih =>
    obtain ⟨k, v⟩ := e
    by_cases same : k = key
    · subst same
      simp only [put, if_true, List.mem_cons] at there
      rcases there with rfl | there
      · exact .inr rfl
      · exact .inl (List.mem_cons_of_mem _ there)
    · simp only [put, same, if_false, List.mem_cons] at there
      rcases there with rfl | there
      · exact .inl List.mem_cons_self
      · rcases ih there with old | new
        · exact .inl (List.mem_cons_of_mem _ old)
        · exact .inr new

-- Where no key comes twice, a look-up finds every entry.
theorem find_of_mem (apart : (entries.map (·.1)).Nodup) (member : (key, old) ∈ entries) :
    find key entries = some old := by
  induction entries with
  | nil => cases member
  | cons e rest ih =>
    obtain ⟨k, v⟩ := e
    rw [List.map_cons, List.nodup_cons] at apart
    rcases List.mem_cons.mp member with here | later
    · cases here
      simp [find]
    · have differ : k ≠ key := by
        rintro rfl
        exact apart.1 (List.mem_map.mpr ⟨_, later, rfl⟩)
      simp only [find, differ, if_false]
      exact ih apart.2 later

theorem find_of_perm {others : List (κ × ν)} (perm : entries.Perm others)
    (apart : (entries.map (·.1)).Nodup) : find key entries = find key others := by
  have alike : (others.map (·.1)).Nodup := (perm.map (·.1)).nodup_iff.mp apart
  ext value
  exact ⟨fun found => find_of_mem alike (perm.mem_iff.mp (mem_of_find found)),
    fun found => find_of_mem apart (perm.mem_iff.mpr (mem_of_find found))⟩

theorem total_put (found : find key entries = some old) (value : ν) (weight : κ × ν → Nat) :
    total ((put key value entries).map weight) + weight (key, old) =
      total (entries.map weight) + weight (key, value) := by
  induction entries with
  | nil => cases found
  | cons e rest ih =>
    obtain ⟨k, v⟩ := e
    by_cases same : k = key
    · subst same
      simp only [find, if_true, Option.some.injEq] at found
      subst found
      simp only [put, if_true, List.map_cons, total]
      omega
    · simp only [find, same, if_false] at found
      have later := ih found
      simp only [put, same, if_false, List.map_cons, total]
      omega

theorem total_put_new (missing : find key entries = none) (value : ν) (weight : κ × ν → Nat) :
    total ((put key value entries).map weight) = total (entries.map weight) + weight (key, value) := by
  rw [put_new missing, List.map_append, total_append]
  rfl

theorem total_filter (found : find key entries = some old) (weight : κ × ν → Nat) :
    total ((entries.filter fun e => e.1 ≠ key).map weight) + weight (key, old) ≤
      total (entries.map weight) := by
  have fewer : ∀ rest : List (κ × ν),
      total ((rest.filter fun e => e.1 ≠ key).map weight) ≤ total (rest.map weight) := by
    intro rest
    induction rest with
    | nil => exact Nat.le_refl _
    | cons e rest ih =>
      by_cases same : e.1 = key
      · rw [List.filter_cons_of_neg (by simpa using same)]
        simp only [List.map_cons, total]
        omega
      · rw [List.filter_cons_of_pos (by simpa using same)]
        simp only [List.map_cons, total]
        omega
  induction entries with
  | nil => cases found
  | cons e rest ih =>
    obtain ⟨k, v⟩ := e
    by_cases same : k = key
    · simp only [find, same, if_true, Option.some.injEq] at found
      subst same found
      have := fewer rest
      rw [List.filter_cons_of_neg (by simp)]
      simp only [List.map_cons, total]
      omega
    · simp only [find, same, if_false] at found
      have later := ih found
      rw [List.filter_cons_of_pos (by simpa using same)]
      simp only [List.map_cons, total]
      omega

theorem sum_insert (found : t.get? key = some old) (value : ν) (weight : κ × ν → Nat) :
    (t.insert key value).sum weight + weight (key, old) = t.sum weight + weight (key, value) :=
  total_put found value weight

theorem sum_insert_new (missing : t.get? key = none) (value : ν) (weight : κ × ν → Nat) :
    (t.insert key value).sum weight = t.sum weight + weight (key, value) :=
  total_put_new missing value weight

theorem sum_erase (found : t.get? key = some old) (weight : κ × ν → Nat) :
    (t.erase key).sum weight + weight (key, old) ≤ t.sum weight :=
  total_filter found weight

theorem sum_modify (found : t.get? key = some old) (change : ν → ν) (weight : κ × ν → Nat) :
    (t.modify key change).sum weight + weight (key, old) =
      t.sum weight + weight (key, change old) := by
  unfold modify
  rw [found]
  exact sum_insert found (change old) weight

theorem keys_put (found : find key entries = some old) (value : ν) :
    (put key value entries).map (·.1) = entries.map (·.1) := by
  induction entries with
  | nil => cases found
  | cons e rest ih =>
    obtain ⟨k, v⟩ := e
    by_cases same : k = key
    · simp [put, same]
    · simp only [find, same, if_false] at found
      simp [put, same, ih found]

theorem keys_insert (found : t.get? key = some old) (value : ν) :
    (t.insert key value).keys = t.keys :=
  keys_put found value

theorem keys_put_new (missing : find key entries = none) (value : ν) :
    (put key value entries).map (·.1) = entries.map (·.1) ++ [key] := by
  rw [put_new missing, List.map_append]
  rfl

theorem mem_keys_iff : key ∈ t.keys ↔ ∃ value, t.get? key = some value := by
  have missing : t.get? key = none ↔ key ∉ t.keys := find_eq_none_iff
  rw [← Option.ne_none_iff_exists', ne_eq, missing, Decidable.not_not]

theorem nodup_insert (apart : t.keys.Nodup) (key : κ) (value : ν) :
    (t.insert key value).keys.Nodup := by
  cases found : t.get? key with
  | some old =>
    rw [keys_insert found]
    exact apart
  | none =>
    have keys : (t.insert key value).keys = t.keys ++ [key] := keys_put_new found value
    rw [keys, List.nodup_append]
    refine ⟨apart, by simp, ?_⟩
    intro other member last new same
    cases List.mem_singleton.mp new
    obtain ⟨value, there⟩ := mem_keys_iff.mp (same ▸ member)
    rw [found] at there
    cases there

theorem nodup_modify (apart : t.keys.Nodup) (key : κ) (change : ν → ν) :
    (t.modify key change).keys.Nodup := by
  unfold modify
  split
  · exact nodup_insert apart key _
  · exact apart

theorem get?_of_mem (apart : t.keys.Nodup) (member : (key, old) ∈ t.entries) :
    t.get? key = some old :=
  find_of_mem apart member

theorem mem_of_get? (found : t.get? key = some old) : (key, old) ∈ t.entries := mem_of_find found

end Table

end Kitchen
