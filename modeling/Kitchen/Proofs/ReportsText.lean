import Kitchen.Encoding.Report
import Kitchen.Proofs.JsonText
import Kitchen.Proofs.Records
import Kitchen.Proofs.Summaries

namespace Kitchen

open Encoding

namespace Json

theorem soundItems_of_forall {items : List Json} (all : ∀ item ∈ items, item.Sound) :
    SoundItems items := by
  induction items with
  | nil => trivial
  | cons item rest ih =>
    obtain ⟨first, others⟩ := List.forall_mem_cons.mp all
    exact ⟨first, ih others⟩

theorem sound_map {α : Type} {encode : α → Json} (sound : ∀ a, (encode a).Sound) (as : List α) :
    (Json.arr (as.map encode)).Sound := by
  refine soundItems_of_forall fun item there => ?_
  obtain ⟨a, _, rfl⟩ := List.mem_map.mp there
  exact sound a

end Json

namespace Report

variable {r : Report} {value : Json}

def fields (r : Report) : List (String × Json) :=
  [("collected_orders", ofOrders r.collected), ("abandoned_orders", ofOrders r.abandoned),
    ("failed_orders", ofOrders r.failed), ("failed_products", ofNames r.failedProducts)]

def keys : List String :=
  ["collected_orders", "abandoned_orders", "failed_orders", "failed_products"]

def listOfText? (text : String) : Option (List Report) := (Json.parse? text).bind (list? ofJson?)

theorem names?_ofNames (names : List String) : names? (ofNames names) = some names := by
  have reads : ∀ name, Json.string? (.str name) = some name := fun _ => rfl
  exact list?_map reads names

theorem orders?_ofOrders (orders : List (List String)) : orders? (ofOrders orders) = some orders :=
  list?_map names?_ofNames orders

theorem ofJson?_written (written : Written r.fields value) : ofJson? value = some r := by
  have once : (r.fields.map (·.1)).Nodup := (by decide : keys.Nodup)
  have found : fields? keys value = some [some (ofOrders r.collected), some (ofOrders r.abandoned),
      some (ofOrders r.failed), some (ofNames r.failedProducts)] := fields?_written once written
  unfold keys at found
  simp only [ofJson?, found, Option.bind_eq_bind, Option.bind_some, required, orders?_ofOrders,
    names?_ofNames]

theorem ofJson?_incomplete (incomplete : Incomplete keys value) : ofJson? value = none := by
  cases read : fields? keys value with
  | none =>
    unfold keys at read
    simp [ofJson?, read]
  | some found =>
    have missing := fields?_incomplete incomplete read
    unfold keys at read
    rw [ofJson?, read]
    match found with
    | [a, b, c, d] =>
      simp only [List.mem_cons, List.not_mem_nil, or_false] at missing
      rcases missing with rfl | rfl | rfl | rfl <;> simp [required]
    | [] | [_] | [_, _] | [_, _, _] | _ :: _ :: _ :: _ :: _ :: _ => rfl

theorem sound_ofNames (names : List String) : (ofNames names).Sound := by
  have sound : ∀ name, (Json.str name).Sound := fun _ => trivial
  exact Json.sound_map sound names

theorem sound_toJson (r : Report) : r.toJson.Sound := by
  have orders : ∀ orders, (ofOrders orders).Sound := Json.sound_map sound_ofNames
  exact ⟨orders _, orders _, orders _, sound_ofNames _, trivial⟩

theorem listOfText?_written {reports : List Report} {values : List Json} {text : String}
    (written : List.Forall₂ (fun value r => Written r.fields value) values reports)
    (read : Json.parse? text = some (.arr values)) : listOfText? text = some reports := by
  rw [listOfText?, read, Option.bind_some, list?_eq_some_iff]
  exact written.imp fun value r => ofJson?_written

theorem listOfText?_toJson (reports : List Report) :
    listOfText? (Json.arr (reports.map toJson)).text = some reports := by
  refine listOfText?_written ?_ (Json.parse?_text (Json.sound_map sound_toJson reports))
  rw [List.forall₂_map_left_iff, List.forall₂_same]
  exact fun r _ => written_obj r.fields

theorem listOfText?_incomplete {values : List Json} {text : String}
    (read : Json.parse? text = some (.arr values)) (there : value ∈ values)
    (incomplete : Incomplete keys value) : listOfText? text = none := by
  rw [listOfText?, read, Option.bind_some]
  exact list?_none there (ofJson?_incomplete incomplete)

end Report

namespace Summary

variable {s : Summary} {value : Json}

def fields (s : Summary) : List (String × Json) :=
  [("workers", .ofNat s.workers), ("collected", .ofNat s.collected),
    ("abandoned", .ofNat s.abandoned), ("failed", .ofNat s.failed),
    ("failed_products", .ofNat s.failedProducts)]

def keys : List String := ["workers", "collected", "abandoned", "failed", "failed_products"]

def ofText? (text : String) : Option Summary := (Json.parse? text).bind ofJson?

structure Words (s : Summary) : Prop where
  workers : s.workers ≤ maxWord
  collected : s.collected ≤ maxWord
  abandoned : s.abandoned ≤ maxWord
  failed : s.failed ≤ maxWord
  failedProducts : s.failedProducts ≤ maxWord

theorem ofJson?_written (words : s.Words) (written : Written s.fields value) :
    ofJson? value = some s := by
  have once : (s.fields.map (·.1)).Nodup := (by decide : keys.Nodup)
  have found : fields? keys value = some [some (.ofNat s.workers), some (.ofNat s.collected),
      some (.ofNat s.abandoned), some (.ofNat s.failed), some (.ofNat s.failedProducts)] :=
    fields?_written once written
  unfold keys at found
  simp only [ofJson?, found, Option.bind_eq_bind, Option.bind_some, required,
    word?_ofNat words.workers, word?_ofNat words.collected, word?_ofNat words.abandoned,
    word?_ofNat words.failed, word?_ofNat words.failedProducts]

theorem ofText?_written {text : String} (words : s.Words) (written : Written s.fields value)
    (read : Json.parse? text = some value) : ofText? text = some s := by
  rw [ofText?, read, Option.bind_some, ofJson?_written words written]

theorem sound_toJson (s : Summary) : s.toJson.Sound := by
  simp [toJson, Json.Sound, Json.SoundMembers, Json.ofNat, Numeral.ofNat]

theorem sound_values (s : Summary) : (Json.arr (s.fields.map (·.2))).Sound := by
  simp [fields, Json.Sound, Json.SoundItems, Json.ofNat, Numeral.ofNat]

end Summary

open Summary (ofReports)

-- Reports come back from their text, and from every other text in which each of them is an object of
-- its fields in some order, with others among them, or the array of its fields; a text in which one of
-- them lacks a field is refused. The totals do not depend on the order of the reports, add up over the
-- parts of a list, and each is the total length of one of the four lists, so that together they count
-- as many orders as the reports do. They come back from their text in the same two forms, as long as
-- they fit in 64 bits.
theorem reports_read_and_summed :
    (∀ reports : List Report,
      Report.listOfText? (Json.arr (reports.map Report.toJson)).text = some reports) ∧
    (∀ (reports : List Report) values text,
      List.Forall₂ (fun value (r : Report) => Written r.fields value) values reports →
        Json.parse? text = some (.arr values) → Report.listOfText? text = some reports) ∧
    (∀ values text value, Json.parse? text = some (.arr values) → value ∈ values →
      Incomplete Report.keys value → Report.listOfText? text = none) ∧
    (∀ reports others, reports.Perm others → ofReports reports = ofReports others) ∧
    (∀ reports others, ofReports (reports ++ others) = ofReports reports + ofReports others) ∧
    (∀ reports, (ofReports reports).workers = reports.length) ∧
    (∀ reports, ofReports reports = ⟨reports.length,
      total (reports.map fun r => r.collected.length),
      total (reports.map fun r => r.abandoned.length),
      total (reports.map fun r => r.failed.length),
      total (reports.map fun r => r.failedProducts.length)⟩) ∧
    (∀ reports others, reports.map Report.lengths = others.map Report.lengths →
      ofReports reports = ofReports others) ∧
    (∀ reports, (ofReports reports).handled = total (reports.map Report.handled)) ∧
    ∀ s : Summary, s.Words → Summary.ofText? s.toJson.text = some s ∧
      Summary.ofText? (Json.arr (s.fields.map (·.2))).text = some s ∧
      ∀ value text, Written s.fields value → Json.parse? text = some value →
        Summary.ofText? text = some s := by
  refine ⟨Report.listOfText?_toJson, fun _ _ _ => Report.listOfText?_written,
    fun _ _ _ => Report.listOfText?_incomplete, fun _ _ => Summary.ofReports_perm,
    Summary.ofReports_append, Summary.workers_ofReports, Summary.ofReports_totals,
    fun _ _ => Summary.ofReports_lengths, Summary.handled_ofReports, ?_⟩
  intro s words
  exact ⟨Summary.ofText?_written words (written_obj s.fields) (Json.parse?_text s.sound_toJson),
    Summary.ofText?_written words .array (Json.parse?_text s.sound_values),
    fun value text => Summary.ofText?_written words⟩

-- One report written from its middle on, with something unknown before its first fields, and another as
-- an array; a report without fields; and totals that just fit.
def burnt : Report := ⟨[], [], [["pie", "tea"], ["pie"]], ["pie", "tea", "pie"]⟩

def served : Report := ⟨[["tea"], [], ["tea"], ["pie"]], [["pie"]], [], []⟩

def turned : Json :=
  .obj [("failed_orders", Report.ofOrders burnt.failed),
    ("failed_products", Report.ofNames burnt.failedProducts), ("color", .null),
    ("collected_orders", .arr []), ("abandoned_orders", .arr [])]

def brim : Summary := ⟨1, maxWord, 0, 0, 0⟩

theorem turned_written : Written burnt.fields turned := by
  refine .object ⟨[("color", .null)], ?_, by decide⟩
  have halves : ([("failed_orders", Report.ofOrders burnt.failed),
      ("failed_products", Report.ofNames burnt.failedProducts), ("color", Json.null)] ++
        [("collected_orders", Json.arr []), ("abandoned_orders", Json.arr [])]).Perm _ :=
    List.perm_append_comm
  simpa [Report.fields, burnt, Report.ofOrders] using halves

theorem burnt_and_served :
    Report.listOfText? (Json.arr [turned, .arr (served.fields.map (·.2))]).text =
        some [burnt, served] ∧
      Report.listOfText? (Json.arr [served.toJson, .obj []]).text = none ∧
      ofReports [burnt, served] = ofReports [served, burnt] ∧
      ofReports [burnt, served] = ⟨2, 4, 1, 2, 3⟩ ∧
      brim.Words ∧ Summary.ofText? brim.toJson.text = some brim := by
  have words : brim.Words := ⟨by decide, by decide, by decide, by decide, by decide⟩
  have array : (Json.arr [turned, .arr (served.fields.map (·.2))]).Sound := by
    simp [turned, burnt, served, Report.fields, Report.ofOrders, Report.ofNames, Json.Sound,
      Json.SoundItems, Json.SoundMembers]
  have short : (Json.arr [served.toJson, .obj []]).Sound := ⟨served.sound_toJson, trivial, trivial⟩
  obtain ⟨_, written, lacking, perm, _, _, sums, _, _, totals⟩ := reports_read_and_summed
  refine ⟨?_, ?_, perm _ _ (.swap ..), sums [burnt, served], words, (totals brim words).1⟩
  · exact written _ _ _ (.cons turned_written (.cons .array .nil)) (Json.parse?_text array)
  · exact lacking _ _ (.obj []) (Json.parse?_text short) (.tail _ (.head _))
      (.object (.head _) List.not_mem_nil)

end Kitchen
