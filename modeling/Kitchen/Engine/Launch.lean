import Kitchen.Config.Settings
import Kitchen.Engine.Step

namespace Kitchen.Engine

-- Checks the settings, starts every station, then the runners and the workers.
def launch (settings : Settings) (stations : List String) :
    Except StartError (State × List Event) :=
  match settings.validate with
  | .error error => .error (.config error)
  | .ok () =>
    if stations.isEmpty then .error .noStations
    else
      .ok (.opened stations settings.workers,
        stations.map (fun station => .called station .start) ++
          [.noticed (.started settings.workers stations.length settings.clientTimeoutMs)])

theorem launch_refused {settings : Settings} {stations : List String} {error : ConfigError}
    (refused : settings.validate = .error error) :
    launch settings stations = .error (.config error) := by
  simp only [launch, refused]

theorem launch_valid {settings : Settings} {stations : List String}
    (valid : settings.validate = .ok ()) (some : stations ≠ []) :
    launch settings stations = .ok (.opened stations settings.workers,
      stations.map (fun station => .called station .start) ++
        [.noticed (.started settings.workers stations.length settings.clientTimeoutMs)]) := by
  have opens : stations.isEmpty = false := by simpa using some
  simp only [launch, valid, opens, Bool.false_eq_true, if_false]

namespace State

def deserted (s : State) : Bool :=
  s.workers.all (fun worker => worker.phase = .finished || worker.phase = .dead) &&
    s.runners.all fun runner => runner.phase = .finished || runner.phase = .dead

-- What is left once the owner has let the kitchen go: the senders of orders that nobody took
-- are gone with it, so that their pagers go off.
def discard (s : State) : State :=
  { s with
    board := { s.board with unassigned := [] }
    buzzers :=
      s.board.unassigned.foldl (fun t order => t.modify order.id Signal.dropSender) s.buzzers
    results :=
      s.board.unassigned.foldl (fun t order => t.modify order.id Signal.dropSender) s.results }

end State

end Kitchen.Engine
