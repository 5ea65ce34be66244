import Kitchen.Config.Settings
import Kitchen.Log.Filter

namespace Kitchen.Log

structure Surroundings where
  filter : Option String
  environment : Option String
  taken : Bool
deriving DecidableEq, Repr

namespace Surroundings

def environmentName (s : Surroundings) : String := s.environment.getD "development"

def settings (s : Surroundings) : LogSettings :=
  ⟨if s.environmentName = "production" then "info" else "debug", false⟩

end Surroundings

structure Console where
  filter : Filter
  json : Bool
deriving DecidableEq, Repr

def ownTarget : String := "cyrk_core::logging"

def initialized (s : Surroundings) (settings : LogSettings) : Event :=
  ⟨.info, "🔧 LOGGING: Initialized",
    [("environment", .text s.environmentName), ("level", .text settings.level),
      ("json", .flag settings.json)], false⟩

def alreadyTaken : Event :=
  ⟨.debug, "Global tracing subscriber already initialized - continuing with existing subscriber",
    [], false⟩

def Console.of (s : Surroundings) (settings : LogSettings) : Console :=
  ⟨(s.filter.bind Filter.parse?).getD (.ofSound settings.level), settings.json⟩

-- The events of the first set-up; later ones do nothing.
def setUp (s : Surroundings) : List LogSettings → List Event
  | [] => []
  | settings :: _ =>
    if s.taken then [alreadyTaken, initialized s settings] else [initialized s settings]

-- The console after some set-ups; `none` while there is none.
def console? (s : Surroundings) : List LogSettings → Option Console
  | [] => none
  | settings :: _ => if s.taken then none else some (.of s settings)

-- What of the own events and of those of `target` reaches the console.
def printed (c : Console) (own : List Event) (target : String) (events : List Event) : List Event :=
  own.filter (fun e => c.filter.lets ownTarget e.level) ++
    events.filter fun e => c.filter.lets target e.level

end Kitchen.Log
