import Kitchen.JobQueue

namespace Kitchen

inductive OrderError where
  | closed
  | invalidProduct (product : String)
  | unknownPager (order : OrderId)
  | notReady (order : OrderId)
  | fulfillmentFailure (order : OrderId)
  | orderExpired (order : OrderId)
deriving DecidableEq, Repr

namespace OrderError

def message : OrderError → String
  | .closed => "System is closed: no further orders are accepted"
  | .invalidProduct product => s!"Product '{product}' is not on the menu"
  | .unknownPager order => s!"Pager for order {order} is unknown or was already collected"
  | .notReady order => s!"Order {order} is not ready for collection"
  | .fulfillmentFailure order => s!"Order {order} could not be fulfilled: a station failed"
  | .orderExpired order => s!"Order {order} expired before it was collected"

-- The outcomes that wait for the client as the order's result; the others are raised at the
-- call.
def isFulfillment : OrderError → Bool
  | .fulfillmentFailure _ | .orderExpired _ => true
  | _ => false

end OrderError

inductive StationError where
  | failure (reason : String)
  | invalidProduct (expected : String)
deriving DecidableEq, Repr

def StationError.message : StationError → String
  | .failure reason => s!"Station failure: {reason}"
  | .invalidProduct expected => s!"Returned product is not a {expected}"

inductive ConfigError where
  | invalidValue (field value context : String)
  | source (name error : String)
  | shape (error : String)
deriving DecidableEq, Repr

def ConfigError.message : ConfigError → String
  | .invalidValue field value context => s!"Invalid value '{value}' for field '{field}': {context}"
  | .source name error => s!"Failed to load configuration from {name}: {error}"
  | .shape error => s!"Configuration does not match the expected schema: {error}"

inductive StartError where
  | config (error : ConfigError)
  | noStations
  | threadSpawn (name source : String)
deriving DecidableEq, Repr

namespace StartError

def message : StartError → String
  | .config error => error.message
  | .noStations => "At least one station is required"
  | .threadSpawn name source => s!"Failed to spawn thread {name}: {source}"

-- The text of the error behind this one. A configuration error is shown as itself and has none.
def cause? : StartError → Option String
  | .threadSpawn _ source => some source
  | _ => none

end StartError

end Kitchen
