import Kitchen.Encoding.Record
import Kitchen.Report

namespace Kitchen

open Encoding

namespace Report

def ofNames (names : List String) : Json := .arr (names.map .str)

def ofOrders (orders : List (List String)) : Json := .arr (orders.map ofNames)

def toJson (r : Report) : Json :=
  .obj [("collected_orders", ofOrders r.collected), ("abandoned_orders", ofOrders r.abandoned),
    ("failed_orders", ofOrders r.failed), ("failed_products", ofNames r.failedProducts)]

def names? (value : Json) : Option (List String) := list? Json.string? value

def orders? (value : Json) : Option (List (List String)) := list? names? value

def ofJson? (value : Json) : Option Report := do
  let [collected, abandoned, failed, products] ←
    fields? ["collected_orders", "abandoned_orders", "failed_orders", "failed_products"] value
    | none
  some ⟨← required orders? collected, ← required orders? abandoned, ← required orders? failed,
    ← required names? products⟩

end Report

namespace Summary

def toJson (s : Summary) : Json :=
  .obj [("workers", .ofNat s.workers), ("collected", .ofNat s.collected),
    ("abandoned", .ofNat s.abandoned), ("failed", .ofNat s.failed),
    ("failed_products", .ofNat s.failedProducts)]

def ofJson? (value : Json) : Option Summary := do
  let [workers, collected, abandoned, failed, products] ←
    fields? ["workers", "collected", "abandoned", "failed", "failed_products"] value | none
  some ⟨← required word? workers, ← required word? collected, ← required word? abandoned,
    ← required word? failed, ← required word? products⟩

end Summary

end Kitchen
