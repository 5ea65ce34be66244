import Kitchen.Encoding.Record
import Mathlib.Data.List.Forall2
import Mathlib.Data.List.Perm.Basic

-- Records written as JSON: an object of known fields, in any order and with others among them, or an
-- array of the fields in their order.

namespace Kitchen

namespace Encoding

variable {fields members : List (String × Json)} {keep : String → Bool} {key : String} {value : Json}

-- The members are some of the fields, in any order, with others of unknown names among them.
def Rearranged (fields : List (String × Json)) (keep : String → Bool)
    (members : List (String × Json)) : Prop :=
  ∃ others, members.Perm (fields.filter (fun field => keep field.1) ++ others) ∧
    ∀ other ∈ others, other.1 ∉ fields.map (·.1)

theorem filter_key (once : (fields.map (·.1)).Nodup) (there : (key, value) ∈ fields) :
    fields.filter (·.1 = key) = [(key, value)] := by
  induction fields with
  | nil => cases there
  | cons first rest ih =>
    obtain ⟨new, once⟩ := List.nodup_cons.mp once
    rcases List.mem_cons.mp there with rfl | there
    · have none : rest.filter (·.1 = key) = [] := by
        rw [List.filter_eq_nil_iff]
        intro other among same
        exact new (List.mem_map.mpr ⟨other, among, of_decide_eq_true same⟩)
      simp [none]
    · have apart : first.1 ≠ key := by
        rintro rfl
        exact new (List.mem_map.mpr ⟨_, there, rfl⟩)
      simp [apart, ih once there]

theorem single?_rearranged (once : (fields.map (·.1)).Nodup) (there : (key, value) ∈ fields)
    (rearranged : Rearranged fields keep members) :
    single? key members = some (if keep key then some value else none) := by
  obtain ⟨others, perm, unknown⟩ := rearranged
  have strange : others.filter (·.1 = key) = [] := by
    rw [List.filter_eq_nil_iff]
    intro other among same
    exact unknown other among (List.mem_map.mpr ⟨_, there, (of_decide_eq_true same).symm⟩)
  have kept : (fields.filter fun field => keep field.1).filter (·.1 = key) =
      if keep key then [(key, value)] else [] := by
    rw [List.filter_comm, filter_key once there]
    cases found : keep key <;> simp [found]
  have found := perm.filter (·.1 = key)
  rw [List.filter_append, strange, List.append_nil, kept] at found
  unfold single?
  cases keeps : keep key with
  | true =>
    rw [keeps, if_pos rfl, List.perm_singleton] at found
    rw [found]
    rfl
  | false =>
    rw [keeps, if_neg Bool.false_ne_true, List.perm_nil] at found
    rw [found]
    rfl

theorem mapM_eq_some_iff {α β : Type} {read : α → Option β} {as : List α} {bs : List β} :
    as.mapM read = some bs ↔ List.Forall₂ (fun a b => read a = some b) as bs := by
  induction as generalizing bs with
  | nil => simp [eq_comm]
  | cons a as ih =>
    simp only [List.mapM_cons, Option.bind_eq_bind, Option.bind_eq_some_iff, Option.pure_def,
      Option.some.injEq, List.forall₂_cons_left_iff, ih]
    constructor
    · rintro ⟨b, here, rest, others, rfl⟩
      exact ⟨b, rest, here, others, rfl⟩
    · rintro ⟨b, rest, here, others, rfl⟩
      exact ⟨b, here, rest, others, rfl⟩

theorem mem_of_mapM {α β : Type} {read : α → Option β} {a : α} {as : List α} {bs : List β}
    (all : as.mapM read = some bs) (there : a ∈ as) : ∃ b ∈ bs, read a = some b := by
  replace all := mapM_eq_some_iff.mp all
  induction all with
  | nil => cases there
  | cons here _ ih =>
    rcases List.mem_cons.mp there with rfl | there
    · exact ⟨_, .head _, here⟩
    · obtain ⟨b, among, reads⟩ := ih there
      exact ⟨b, .tail _ among, reads⟩

theorem fields?_rearranged (once : (fields.map (·.1)).Nodup)
    (rearranged : Rearranged fields keep members) : fields? (fields.map (·.1)) (.obj members) =
      some (fields.map fun field => if keep field.1 then some field.2 else none) := by
  refine mapM_eq_some_iff.mpr ?_
  rw [List.forall₂_map_left_iff, List.forall₂_map_right_iff, List.forall₂_same]
  intro field there
  exact single?_rearranged once there rearranged

theorem optional_kept {α : Type} {decode : Json → Option α} {a : α} (reads : decode value = some a)
    (default : α) (kept : Bool) :
    optional decode default (if kept then some value else none) =
      some (if kept then a else default) := by
  cases kept with
  | true => exact reads
  | false => rfl

theorem word?_ofNat {n : Nat} (fits : n ≤ maxWord) : word? (.ofNat n) = some n := by
  simp [word?, Json.ofNat, Json.nat?, Numeral.toNat?_ofNat, fits]

inductive Written (fields : List (String × Json)) : Json → Prop where
  | object {members : List (String × Json)} (all : Rearranged fields (fun _ => true) members) :
      Written fields (.obj members)
  | array : Written fields (.arr (fields.map (·.2)))

theorem written_obj (fields : List (String × Json)) : Written fields (.obj fields) :=
  .object ⟨[], by simp, nofun⟩

theorem fields?_written (once : (fields.map (·.1)).Nodup) (written : Written fields value) :
    fields? (fields.map (·.1)) value = some (fields.map fun field => some field.2) := by
  cases written with
  | object all => exact fields?_rearranged once all
  | array => simp [fields?]

-- A field is missing, from an object or at the end of an array.
inductive Incomplete (names : List String) : Json → Prop where
  | object {members : List (String × Json)} {name : String} (known : name ∈ names)
      (missing : name ∉ members.map (·.1)) : Incomplete names (.obj members)
  | array {items : List Json} (short : items.length < names.length) :
      Incomplete names (.arr items)

theorem single?_missing (missing : key ∉ members.map (·.1)) : single? key members = some none := by
  have none : members.filter (·.1 = key) = [] := by
    rw [List.filter_eq_nil_iff]
    intro member there same
    exact missing (List.mem_map.mpr ⟨member, there, of_decide_eq_true same⟩)
  rw [single?, none]

theorem fields?_incomplete {names : List String} {found : List (Option Json)}
    (incomplete : Incomplete names value) (read : fields? names value = some found) :
    none ∈ found := by
  cases incomplete with
  | @object members name known missing =>
    obtain ⟨field, there, nowhere⟩ := mem_of_mapM read known
    rw [single?_missing missing] at nowhere
    cases nowhere
    exact there
  | array short =>
    rw [fields?, if_pos (Nat.le_of_lt short)] at read
    cases read
    refine List.mem_append.mpr (.inr (List.mem_replicate.mpr ⟨?_, rfl⟩))
    omega

theorem list?_eq_some_iff {α : Type} {decode : Json → Option α} {values : List Json} {as : List α} :
    list? decode (.arr values) = some as ↔
      List.Forall₂ (fun value a => decode value = some a) values as := mapM_eq_some_iff

theorem list?_map {α : Type} {decode : Json → Option α} {encode : α → Json}
    (reads : ∀ a, decode (encode a) = some a) (as : List α) :
    list? decode (.arr (as.map encode)) = some as := by
  rw [list?_eq_some_iff, List.forall₂_map_left_iff, List.forall₂_same]
  exact fun a _ => reads a

theorem list?_none {α : Type} {decode : Json → Option α} {values : List Json}
    (there : value ∈ values) (refused : decode value = none) : list? decode (.arr values) = none := by
  refine Option.eq_none_iff_forall_ne_some.mpr fun as all => ?_
  obtain ⟨a, _, reads⟩ := mem_of_mapM all there
  rw [refused] at reads
  cases reads

end Encoding

end Kitchen
