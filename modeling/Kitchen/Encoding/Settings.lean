import Kitchen.Encoding.Record

namespace Kitchen

open Encoding

namespace LogSettings

def toJson (s : LogSettings) : Json := .obj [("level", .str s.level), ("json", .bool s.json)]

def ofJson? (value : Json) : Option LogSettings := do
  let [level, json] ← fields? ["level", "json"] value | none
  some ⟨← optional Json.string? default.level level, ← optional Json.bool? default.json json⟩

end LogSettings

namespace Settings

def toJson (s : Settings) : Json :=
  .obj [("workers", .ofNat s.workers), ("client_timeout_ms", .ofNat s.clientTimeoutMs),
    ("logging", s.logging.toJson)]

def ofJson? (value : Json) : Option Settings := do
  let [workers, timeout, logging] ← fields? ["workers", "client_timeout_ms", "logging"] value | none
  some ⟨← optional word? default.workers workers, ← optional word? default.clientTimeoutMs timeout,
    ← optional LogSettings.ofJson? default.logging logging⟩

end Settings

end Kitchen
