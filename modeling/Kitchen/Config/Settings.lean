import Kitchen.Error
import Kitchen.Text.Blank
import Kitchen.Text.Span

namespace Kitchen

structure LogSettings where
  level : String
  json : Bool
deriving DecidableEq, Repr

structure Settings where
  workers : Nat
  clientTimeoutMs : Nat
  logging : LogSettings
deriving DecidableEq, Repr

def maxWord : Nat := 18446744073709551615

namespace LogSettings

def default : LogSettings := ⟨"info", false⟩

def validate (s : LogSettings) : Except ConfigError Unit :=
  if Text.allBlank s.level then
    .error (.invalidValue "logging.level" s.level "log level must not be empty")
  else .ok ()

end LogSettings

namespace Settings

def default : Settings := ⟨4, 1000, .default⟩

-- The timeout is cut to whole milliseconds and held below the greatest number.
def ofTimeout (workers : Nat) (timeout : Span) : Settings :=
  { default with workers, clientTimeoutMs := min timeout.millis maxWord }

def clientTimeout (s : Settings) : Span := .ofMillis s.clientTimeoutMs

-- Refuses settings no kitchen can run with; the first fault counts.
def validate (s : Settings) : Except ConfigError Unit :=
  if s.workers = 0 then
    .error (.invalidValue "workers" (toString s.workers) "at least one worker is required")
  else if s.clientTimeoutMs = 0 then
    .error (.invalidValue "client_timeout_ms" (toString s.clientTimeoutMs)
      "pickup timeout must be at least 1ms")
  else s.logging.validate

end Settings

end Kitchen
