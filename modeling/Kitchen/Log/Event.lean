import Kitchen.Engine.State
import Kitchen.Text.Quoted

namespace Kitchen.Log

inductive Level where
  | error
  | warn
  | info
  | debug
  | trace
deriving DecidableEq, Repr

namespace Level

def name : Level → String
  | .error => "ERROR"
  | .warn => "WARN"
  | .info => "INFO"
  | .debug => "DEBUG"
  | .trace => "TRACE"

def rank : Level → Nat
  | .error => 1
  | .warn => 2
  | .info => 3
  | .debug => 4
  | .trace => 5

def all : List Level := [.error, .warn, .info, .debug, .trace]

end Level

inductive Value where
  | text (value : String)
  | number (value : Nat)
  | flag (value : Bool)
deriving DecidableEq, Repr

namespace Value

def quoted (text : String) : Value := .text (Text.quoted text)

def digits (n : Nat) : Value := .text (toString n)

def display : Value → String
  | .text value => value
  | .number value => toString value
  | .flag value => toString value

end Value

structure Event where
  level : Level
  message : String
  fields : List (String × Value)
  stamped : Bool
deriving DecidableEq, Repr

namespace Event

def of (level : Level) (message operation : String) (fields : List (String × Value)) : Event :=
  ⟨level, message, ("operation", .text operation) :: fields, true⟩

def order (level : Level) (operation : String) (id : Option OrderId)
    (extras : List (String × Value)) : Event :=
  match id with
  | some id =>
    of level s!"📋 ORDER_{operation} (order: {id})" operation (("order_id", .number id) :: extras)
  | none => of level s!"📋 ORDER_{operation}" operation extras

def worker (level : Level) (operation : String) (index : Nat)
    (extras : List (String × Value)) : Event :=
  of level s!"👷 WORKER_{operation} (worker: {index})" operation
    (("worker", .number index) :: extras)

def station (level : Level) (operation product : String) (extras : List (String × Value)) :
    Event :=
  of level s!"🏭 STATION_{operation} (product: {product})" operation
    (("product", .text product) :: extras)

def system (level : Level) (operation : String) (extras : List (String × Value)) : Event :=
  of level s!"🚀 SYSTEM_{operation}" operation extras

def config (level : Level) (operation : String) (extras : List (String × Value)) : Event :=
  of level operation operation extras

open Value in
def ofNotice : Engine.Notice → Event
  | .started workers stations timeout =>
    system .info "STARTED"
      [("workers", digits workers), ("stations", digits stations),
        ("client_timeout_ms", digits timeout)]
  | .orderAccepted id => order .debug "ACCEPTED" (some id) []
  | .orderRejected product => order .debug "REJECTED" none [("product", quoted product)]
  | .orderDispatched id jobs => order .debug "DISPATCHED" (some id) [("jobs", digits jobs)]
  | .orderReady id index => order .debug "READY" (some id) [("worker", digits index)]
  | .orderCollected id index => order .info "COLLECTED" (some id) [("worker", digits index)]
  | .orderExpired id index returned =>
    order .info "EXPIRED" (some id) [("worker", digits index), ("returned", digits returned)]
  | .orderFailed id index returned =>
    order .warn "FAILED" (some id) [("worker", digits index), ("returned", digits returned)]
  | .workerStarted index => worker .debug "STARTED" index []
  | .workerStopped index handled =>
    worker .debug "STOPPED" index [("orders_handled", digits handled)]
  | .orderClaimed index id products =>
    worker .debug "CLAIMED" index
      [("order_id", digits id), ("products", .text (Text.quotedList products))]
  | .productFailed index id product error =>
    worker .warn "PRODUCT_FAILED" index
      [("order_id", digits id), ("product", quoted product), ("error", quoted error.message)]
  | .productAbandoned index id product =>
    worker .error "PRODUCT_ABANDONED" index [("order_id", digits id), ("product", quoted product)]
  | .workerDied index => worker .error "PANICKED" index []
  | .runnerStarted product => station .debug "RUNNER_STARTED" product []
  | .runnerStopped product => station .debug "RUNNER_STOPPED" product []
  | .runnerDied => system .error "STATION_RUNNER_PANICKED" []
  | .deliveryDropped product id =>
    station .warn "DELIVERY_DROPPED" product [("order_id", digits id)]
  | .stationFailed product id swept error =>
    station .error "FAILED" product
      [("order_id", digits id), ("swept_jobs", digits swept), ("error", quoted error.message)]
  | .returnSkipped product id => station .warn "RETURN_SKIPPED" product [("order_id", digits id)]
  | .returnRejected product id error =>
    station .warn "RETURN_REJECTED" product
      [("order_id", digits id), ("error", quoted error.message)]
  | .shutdownRepeated => system .warn "SHUTDOWN_REPEATED" []
  | .shutdownComplete s =>
    system .info "SHUTDOWN_COMPLETE"
      [("collected", digits s.collected), ("abandoned", digits s.abandoned),
        ("failed", digits s.failed), ("failed_products", digits s.failedProducts)]

def line (e : Event) : String :=
  e.fields.foldl (fun text (name, value) => text ++ " " ++ name ++ "=" ++ value.display) e.message

end Event

end Kitchen.Log
