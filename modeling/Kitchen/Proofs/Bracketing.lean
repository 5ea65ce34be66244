import Kitchen.Proofs.Release
import Kitchen.Proofs.Shutting
import Kitchen.Session.Site

namespace Kitchen.Engine

variable {s t : State} {action : Action} {actions later : List Action} {events more : List Event}
  {call : CallId} {id : OrderId} {i j : Nat} {report : Report} {old : WorkerPhase}
  {stage : ShutdownPhase} {use : PagerUse} {phase : PagerPhase} {stations : List String}
  {workers : Nat} {name station : String} {made : StationCall}

def Event.on? (station : String) : Event → Option StationCall
  | .called name call => if name = station then some call else none
  | _ => none

def stationCalls (station : String) (events : List Event) : List StationCall :=
  events.filterMap (Event.on? station)

def StationCall.works : StationCall → Bool
  | .produce | .acceptReturn _ => true
  | .start | .stop => false

theorem stationCalls_append (station : String) (events more : List Event) :
    stationCalls station (events ++ more) = stationCalls station events ++ stationCalls station more :=
  List.filterMap_append

theorem stationCalls_called (station name : String) (made : StationCall) :
    stationCalls station [.called name made] = if name = station then [made] else [] := by
  by_cases same : name = station <;> simp [stationCalls, Event.on?, same]

theorem pager_silent (move : PagerMove s call id use phase t more) (station : String) :
    stationCalls station more = [] := by
  rcases move.answers with rfl | ⟨_, rfl⟩ | ⟨_, rfl⟩ | rfl <;> rfl

theorem client_silent (move : ClientMove s action t more) (station : String) :
    stationCalls station more = [] := by
  cases move with
  | usePager _ move => exact pager_silent move station
  | _ => rfl

def ShutdownPhase.stopped : ShutdownPhase → Nat
  | .stopping _ done => done
  | _ => 0

def State.halted (s : State) (j : Nat) : Prop :=
  (∃ call stage, s.calls.get? call = some (.shutdown stage) ∧ j < stage.stopped) ∨
    s.running = false ∧ ∀ call stage, s.calls.get? call ≠ some (.shutdown stage)

theorem Closing.halted_iff (closing : Closing s) (here : s.calls.get? call = some (.shutdown stage)) :
    s.halted j ↔ j < stage.stopped := by
  constructor
  · rintro (⟨other, later, there, below⟩ | ⟨_, none⟩)
    · cases closing.single call other stage later here there
      cases here.symm.trans there
      exact below
    · exact absurd here (none call stage)
  · exact fun below => .inl ⟨call, stage, here, below⟩

theorem halted_same (calls : Closing.Same s t) (running : t.running = s.running) (j : Nat) :
    t.halted j ↔ s.halted j := by
  simp only [State.halted, running, ne_eq, calls _ _]

-- The call that shuts down returns once it has stopped every station.
theorem Closing.halted_endCall (closing : Closing s)
    (here : s.calls.get? call = some (.shutdown stage)) (j : Nat) : (s.endCall call).halted j := by
  refine .inr ⟨(closing.during call _ here).taken, ?_⟩
  intro other later there
  change (s.calls.erase call).get? other = _ at there
  rw [Table.get?_erase] at there
  split at there
  · cases there
  next differ => exact differ (closing.single call other _ later here there)

-- Before it stops the first station everybody has ended.
theorem Closing.halted_deserted (closing : Closing s) (halted : s.halted j) :
    (∀ worker ∈ s.workers, worker.phase.ended = true) ∧
      ∀ runner ∈ s.runners, runner.phase.ended = true := by
  rcases halted with ⟨call, stage, here, below⟩ | ⟨off, none⟩
  · have fits := closing.during call stage here
    cases stage with
    | stopping reports done =>
      refine ⟨(fits.reports_eq rfl).2, ?_⟩
      intro runner member
      obtain ⟨k, there⟩ := List.getElem?_of_mem member
      obtain ⟨other, found, ended⟩ := fits.left k (List.getElem?_eq_some_iff.mp there).1
      cases there.symm.trans found
      exact ended
    | _ => cases below
  · exact (closing.after off none).2.2

-- Started, at work, and stopped at most once.
def Bracketed (calls : List StationCall) (halted : Prop) : Prop :=
  ∃ work, (∀ call ∈ work, call.works = true) ∧
    (calls = .start :: work ∧ ¬ halted ∨ calls = .start :: (work ++ [.stop]) ∧ halted)

structure Bracketing (stations : List String) (events : List Event) (s : State) : Prop where
  inside : ∀ (j : Nat) (station : String), stations[j]? = some station →
    Bracketed (stationCalls station events) (s.halted j)
  outside : ∀ station, station ∉ stations → stationCalls station events = []

namespace Bracketing

theorem quiet (bracketing : Bracketing stations events s) (silent : ∀ station, stationCalls station more = [])
    (same : ∀ j, j < stations.length → (t.halted j ↔ s.halted j)) :
    Bracketing stations (events ++ more) t := by
  refine ⟨?_, ?_⟩
  · intro j station found
    rw [stationCalls_append, silent, List.append_nil, same j (List.getElem?_eq_some_iff.mp found).1]
    exact bracketing.inside j station found
  · intro station unknown
    rw [stationCalls_append, silent, bracketing.outside station unknown, List.append_nil]

theorem work (bracketing : Bracketing stations events s) (known : name ∈ stations)
    (works : made.works = true) (open' : ∀ j, ¬ s.halted j) (same : ∀ j, t.halted j ↔ s.halted j) :
    Bracketing stations (events ++ [.called name made]) t := by
  refine ⟨?_, ?_⟩
  · intro j station found
    obtain ⟨work, all, ⟨calls, _⟩ | ⟨_, halted⟩⟩ := bracketing.inside j station found
    · rw [stationCalls_append, stationCalls_called, calls]
      split
      · refine ⟨work ++ [made], ?_, .inl ⟨rfl, fun halted => open' j ((same j).mp halted)⟩⟩
        intro call member
        rcases List.mem_append.mp member with before | last
        · exact all call before
        · cases List.mem_singleton.mp last
          exact works
      · rw [List.append_nil]
        exact ⟨work, all, .inl ⟨rfl, fun halted => open' j ((same j).mp halted)⟩⟩
    · exact absurd halted (open' j)
  · intro station unknown
    rw [stationCalls_append, stationCalls_called, bracketing.outside station unknown, if_neg]
    · rfl
    · rintro rfl
      exact unknown known

theorem stop {done : Nat} {runner : Runner} {reports : List Report}
    (bracketing : Bracketing stations events s) (apart : stations.Nodup) (steady : Steady stations s)
    (here : s.calls.get? call = some (.shutdown (.stopping reports done)))
    (there : s.runners[done]? = some runner) (move : Transition s action t [.called runner.station .stop])
    (calls : t.calls.get? call = some (.shutdown (.stopping reports (done + 1)))) :
    Bracketing stations (events ++ [.called runner.station .stop]) t := by
  have before : ∀ j, s.halted j ↔ j < done := fun j => steady.closing.halted_iff here
  have after : ∀ j, t.halted j ↔ j < done + 1 := fun j => (steady.closing.step move).halted_iff calls
  have mine : stations[done]? = some runner.station := by
    rw [← steady.stock.staff, List.getElem?_map, there]
    rfl
  refine ⟨?_, ?_⟩
  · intro j station found
    obtain ⟨work, all, bracket⟩ := bracketing.inside j station found
    rw [stationCalls_append, stationCalls_called, after]
    rw [before] at bracket
    by_cases same : j = done
    · subst same
      cases mine.symm.trans found
      rw [if_pos rfl]
      refine ⟨work, all, .inr ⟨?_, Nat.lt_succ_self j⟩⟩
      rcases bracket with ⟨calls, _⟩ | ⟨_, below⟩
      · rw [calls]
        rfl
      · exact absurd below (Nat.lt_irrefl j)
    · have other : runner.station ≠ station := by
        rintro rfl
        exact same ((List.getElem?_inj (List.getElem?_eq_some_iff.mp found).1 apart).mp
          (found.trans mine.symm))
      rw [if_neg other, List.append_nil]
      have still : j < done + 1 ↔ j < done := by omega
      rw [still]
      exact ⟨work, all, bracket⟩
  · intro station unknown
    rw [stationCalls_append, stationCalls_called, bracketing.outside station unknown, if_neg]
    · rfl
    · rintro rfl
      exact unknown (List.mem_of_getElem? mine)

theorem worker (bracketing : Bracketing stations events s) (steady : Steady stations s)
    (here : s.workers[i]? = some ⟨old, report⟩) (move : WorkerMove s i report old action t more) :
    Bracketing stations (events ++ more) t := by
  have same : ∀ j, t.halted j ↔ s.halted j :=
    halted_same (fun _ _ => by rw [move.unmanned.calls]) move.unmanned.running
  have open' : ∀ j, ¬ s.halted j := by
    intro j halted
    have ended := (steady.closing.halted_deserted halted).1 _ (List.mem_of_getElem? here)
    rw [move.active] at ended
    cases ended
  cases move with
  | handBack known =>
    exact bracketing.work ((steady.stock.hasStation_iff _).mp known) rfl open' same
  | @dispatch order =>
    refine bracketing.quiet (fun station => ?_) fun j _ => same j
    rw [stationCalls_append, stationCalls, spread_shows _ _ _ fun _ _ => rfl]
    rfl
  | _ => exact bracketing.quiet (fun _ => rfl) fun j _ => same j

theorem runner {was : RunnerPhase} {out : Bool} {calls : Nat} (bracketing : Bracketing stations events s)
    (steady : Steady stations s) (here : s.runners[i]? = some ⟨station, was, out, calls⟩)
    (move : RunnerMove s i station out calls was action t more) :
    Bracketing stations (events ++ more) t := by
  have same : ∀ j, t.halted j ↔ s.halted j :=
    halted_same (fun _ _ => by rw [move.unmanned.calls]) move.unmanned.running
  have member := List.mem_of_getElem? here
  have open' : ∀ j, ¬ s.halted j := by
    intro j halted
    have ended := (steady.closing.halted_deserted halted).2 _ member
    rw [move.active] at ended
    cases ended
  cases move with
  | ask =>
    have known : station ∈ stations := by
      rw [← steady.stock.staff]
      exact List.mem_map_of_mem member
    exact bracketing.work known rfl open' same
  | handOver =>
    refine bracketing.quiet (fun other => ?_) fun j _ => same j
    simp only [stationCalls, List.filterMap_cons, Event.on?]
    split <;> rfl
  | _ => exact bracketing.quiet (fun _ => rfl) fun j _ => same j

theorem client (bracketing : Bracketing stations events s) (steady : Steady stations s)
    (move : ClientMove s action t more) : Bracketing stations (events ++ more) t := by
  refine bracketing.quiet (client_silent move) fun j _ => ?_
  by_cases no : ∀ call, action = .shutdown call → s.running = false
  · refine halted_same (Closing.same_client move no) ?_ j
    cases move with
    | usePager _ move => exact move.frame.2.2.2.2.2
    | shutdown _ running => cases (no _ rfl).symm.trans running
    | _ => rfl
  · cases move with
    | @shutdown call unused running =>
      -- The call that takes the threads has stopped nothing, and nobody has before it.
      have later := (steady.closing.begun running call).halted_iff (j := j)
        (Table.get?_insert_self s.calls call _)
      rw [later]
      constructor
      · intro below
        cases below
      · rintro (⟨other, stage, there, _⟩ | ⟨off, _⟩)
        · exact absurd there ((steady.closing.before running).2.2 other stage)
        · cases off.symm.trans running
    | shutdownAgain _ taken => exact absurd (fun _ _ => taken) no
    | _ => exact absurd (by simp) no

theorem shutdown (bracketing : Bracketing stations events s) (apart : stations.Nodup)
    (steady : Steady stations s) (here : s.calls.get? call = some (.shutdown stage))
    (move : ShutdownMove s call stage t more) : Bracketing stations (events ++ more) t := by
  have closing := steady.closing.step (.shutdown here move)
  have before : ∀ j, s.halted j ↔ j < stage.stopped := fun j => steady.closing.halted_iff here
  have goesOn : ∀ later, t.calls.get? call = some (.shutdown later) → later.stopped = stage.stopped →
      ∀ j, t.halted j ↔ s.halted j := by
    intro later there same j
    rw [before, closing.halted_iff there, same]
  cases move with
  | stop there =>
    exact bracketing.stop apart steady here there (.shutdown here (.stop there))
      (Table.get?_insert_self s.calls call _)
  | @finish done reports all =>
    refine bracketing.quiet (fun _ => rfl) fun j below => ?_
    have every : s.halted j := by
      have beyond := List.getElem?_eq_none_iff.mp all
      rw [← steady.stock.staff, List.length_map] at below
      exact (before j).mpr (Nat.lt_of_lt_of_le below beyond)
    exact iff_of_true (steady.closing.halted_endCall here j) every
  | joinRunner _ ended =>
    refine bracketing.quiet ?_ fun j _ => goesOn _ (Table.get?_insert_self s.calls call _) rfl j
    rcases ended with ⟨_, rfl⟩ | ⟨_, rfl⟩ <;> exact fun _ => rfl
  | _ =>
    exact bracketing.quiet (fun _ => rfl)
      fun j _ => goesOn _ (Table.get?_insert_self _ call _) rfl j

theorem step (bracketing : Bracketing stations events s) (apart : stations.Nodup)
    (steady : Steady stations s) (step : Transition s action t more) :
    Bracketing stations (events ++ more) t := by
  cases step with
  | worker here move => exact bracketing.worker steady here move
  | runner here move => exact bracketing.runner steady here move
  | client move => exact bracketing.client steady move
  | shutdown here move => exact bracketing.shutdown apart steady here move

-- The kitchen starts each station before anything else.
theorem opened {started : Notice} (apart : stations.Nodup) (workers : Nat) :
    Bracketing stations (stations.map (fun station => .called station .start) ++ [.noticed started])
      (.opened stations workers) := by
  have starts : ∀ station, stationCalls station (stations.map (fun station => .called station .start) ++
      [.noticed started]) = if station ∈ stations then [.start] else [] := by
    intro station
    rw [stationCalls_append]
    change stationCalls station _ ++ [] = _
    rw [List.append_nil]
    induction stations with
    | nil => rfl
    | cons first rest ih =>
      obtain ⟨new, others⟩ := List.nodup_cons.mp apart
      rw [List.map_cons, ← List.singleton_append, stationCalls_append, stationCalls_called, ih others]
      by_cases same : first = station
      · subst same
        simp [new]
      · simp [same, Ne.symm same]
  refine ⟨?_, ?_⟩
  · intro j station found
    rw [starts, if_pos (List.mem_of_getElem? found)]
    refine ⟨[], by simp, .inl ⟨rfl, ?_⟩⟩
    rintro (⟨_, _, there, _⟩ | ⟨off, _⟩)
    · cases there
    · cases off
  · intro station unknown
    rw [starts, if_neg unknown]

theorem run {begun : List Event} (apart : stations.Nodup)
    (start : Bracketing stations begun (.opened stations workers))
    (run : Run (.opened stations workers) actions events s) :
    Bracketing stations (begun ++ events) s := by
  induction run with
  | start =>
    rw [List.append_nil]
    exact start
  | next before ran ih =>
    rw [← List.append_assoc]
    exact ih.step apart (Steady.opened apart before) (transition_of_step ran)

end Bracketing

theorem Bracketed.nothing_after {calls rest : List StationCall} {halted : Prop}
    (whole : Bracketed (calls ++ rest) halted) (stopped : .stop ∈ calls) : rest = [] := by
  obtain ⟨work, all, shape⟩ := whole
  have unstopped : .stop ∉ StationCall.start :: work := by
    intro member
    rcases List.mem_cons.mp member with same | member
    · cases same
    · cases all _ member
  rcases shape with ⟨same, _⟩ | ⟨same, _⟩
  · exact absurd (same ▸ List.mem_append_left rest stopped) unstopped
  · rcases List.eq_nil_or_concat rest with none | ⟨others, last, rfl⟩
    · exact none
    · rw [List.concat_eq_append, ← List.append_assoc, ← List.cons_append] at same
      have before := (List.append_inj' same rfl).1
      exact absurd (before ▸ List.mem_append_left others stopped) unstopped

theorem all_of_kept {l m : List α} {holds : α → Prop} (length : m.length = l.length)
    (kept : ∀ (i : Nat) (a : α), l[i]? = some a → holds a → m[i]? = some a)
    (all : ∀ a ∈ l, holds a) : ∀ a ∈ m, holds a := by
  intro a member
  obtain ⟨i, there⟩ := List.getElem?_of_mem member
  have inside := (List.getElem?_eq_some_iff.mp there).1
  rw [length] at inside
  have here := List.getElem?_eq_getElem inside
  have before := all _ (List.mem_of_getElem? here)
  cases (kept i _ here before).symm.trans there
  exact before

structure Deserted (s : State) : Prop where
  taken : s.running = false
  returned : ∀ call stage, s.calls.get? call ≠ some (.shutdown stage)
  workers : ∀ worker ∈ s.workers, worker.phase.ended = true
  runners : ∀ runner ∈ s.runners, runner.phase.ended = true

namespace Deserted

-- Nobody calls a station any more, whatever clients still do.
theorem step (deserted : Deserted s) (step : Transition s action t more) :
    Deserted t ∧ ∀ station, stationCalls station more = [] := by
  have outlasts := step.outlasts
  cases step with
  | worker here move =>
    cases move.active.symm.trans (deserted.workers _ (List.mem_of_getElem? here))
  | runner here move =>
    cases move.active.symm.trans (deserted.runners _ (List.mem_of_getElem? here))
  | shutdown here => exact absurd here (deserted.returned _ _)
  | client move =>
    have same := Closing.same_client move fun _ _ => deserted.taken
    refine ⟨⟨(Transition.client move).stays_taken deserted.taken, ?_, ?_, ?_⟩, client_silent move⟩
    · exact fun call stage there => deserted.returned call stage ((same call stage).mp there)
    · exact all_of_kept outlasts.crew outlasts.workers deserted.workers
    · exact all_of_kept outlasts.staff outlasts.runners deserted.runners

theorem run (deserted : Deserted s) (run : Run s actions events t) (station : String) :
    stationCalls station events = [] := by
  have all : Deserted t ∧ stationCalls station events = [] := by
    induction run with
    | start => exact ⟨deserted, rfl⟩
    | next _ ran ih =>
      obtain ⟨deserted, silent⟩ := ih.1.step (transition_of_step ran)
      refine ⟨deserted, ?_⟩
      rw [stationCalls_append, ih.2, silent]
      rfl
  exact all.2

end Deserted

theorem Closing.deserted_of_returned (closing : Closing s) (taken : s.running = false)
    (returned : ∀ call stage, s.calls.get? call ≠ some (.shutdown stage)) : Deserted s :=
  let ⟨_, _, workers, runners⟩ := closing.after taken returned
  ⟨taken, returned, workers, runners⟩

-- What the kitchen does with its threads, jobs and stations, as its owner sees it.
structure Managed (stations : List String) (events : List Event) (s : State) : Prop where
  manned : s.board.released = true → ∀ worker ∈ s.workers, worker.phase.ended = true
  cleared : s.board.released = true → ∀ later more t, Run s later more t →
    t.board.released = true ∧ Cleared t ∧ s.posted later = []
  leaves : ∀ action t more (j : Nat) (was now : Runner), s.step action = some (t, more) →
    s.runners[j]? = some was → t.runners[j]? = some now → was.phase.ended = false →
      now.phase.ended = true → Leaving s j was now action
  left : ∀ runner ∈ s.runners, runner.phase = .finished →
    s.board.released = true ∧ s.idleQueue runner.station
  bracket : ∀ station ∈ stations, ∃ work stops,
    stationCalls station events = .start :: (work ++ stops) ∧
      (∀ call ∈ work, call.works = true) ∧ (stops = [] ∨ stops = [.stop])
  strangers : ∀ station, station ∉ stations → stationCalls station events = []
  silent : ∀ station, .stop ∈ stationCalls station events → ∀ later more t, Run s later more t →
    stationCalls station more = []
  stopped : ∀ call stage t more, s.calls.get? call = some (.shutdown stage) →
    s.step (.client call) = some (t, more) → call ∈ reported more → ∀ station ∈ stations,
      (stationCalls station (events ++ more)).count .stop = 1
  -- Nor is a station called once the owner has let the kitchen go.
  discarded : s.running = false → (∀ call stage, s.calls.get? call ≠ some (.shutdown stage)) →
    ∀ later more t, Run s.discard later more t → ∀ station, stationCalls station more = []

theorem managed {begun : List Event} (apart : stations.Nodup)
    (start : Bracketing stations begun (.opened stations workers))
    (run : Run (.opened stations workers) actions events s) :
    Managed stations (begun ++ events) s := by
  have steady := Steady.opened apart run
  have bracketing := Bracketing.run apart start run
  have silent : ∀ station, .stop ∈ stationCalls station (begun ++ events) → ∀ later more t,
      Run s later more t → stationCalls station more = [] := by
    intro station stopped later more t after
    have known : station ∈ stations := by
      refine Classical.byContradiction fun unknown => ?_
      rw [bracketing.outside station unknown] at stopped
      cases stopped
    obtain ⟨j, found⟩ := List.getElem?_of_mem known
    have whole := (Bracketing.run apart start (run.append after)).inside j station found
    rw [← List.append_assoc, stationCalls_append] at whole
    exact whole.nothing_after stopped
  refine ⟨steady.closing.deserted, ?_, ?_, steady.sleepers.left, ?_, bracketing.outside, silent,
    ?_, ?_⟩
  · intro released later more t after
    exact ⟨released_stays after released, cleared_run apart run after released⟩
  · intro action t more j was now ran here there on off
    exact leaving_of_step (transition_of_step ran) here there on off
  · intro station known
    obtain ⟨j, found⟩ := List.getElem?_of_mem known
    obtain ⟨work, all, ⟨calls, _⟩ | ⟨calls, _⟩⟩ := bracketing.inside j station found
    · exact ⟨work, [], by rw [calls, List.append_nil], all, .inl rfl⟩
    · exact ⟨work, [.stop], calls, all, .inr rfl⟩
  · intro call stage t more here ran answer station known
    obtain ⟨j, found⟩ := List.getElem?_of_mem known
    have step := transition_of_step ran
    obtain ⟨reports, told⟩ := mem_reported.mp answer
    have halted : t.halted j := by
      rw [(stage_of_reports (shutdown_of_step here ran) told).1]
      exact steady.closing.halted_endCall here j
    obtain ⟨work, all, ⟨_, open'⟩ | ⟨calls, _⟩⟩ :=
      (bracketing.step apart steady step).inside j station found
    · exact absurd halted open'
    · have unstopped : .stop ∉ work := fun member => by cases all _ member
      rw [calls, List.count_cons, List.count_append, List.count_eq_zero_of_not_mem unstopped]
      rfl
  · intro taken returned later more t after station
    have deserted := steady.closing.deserted_of_returned taken returned
    exact (Deserted.mk taken returned deserted.workers deserted.runners : Deserted s.discard).run after
      station

-- Settings that nobody can run a kitchen with, or no stations, and no station is called. Otherwise each is
-- started before anything else, is at work while jobs are made and products go back, and is stopped
-- once. The stations are released after every worker has ended, when no job is left and none can come,
-- and only then do runners leave that their stations have not killed.
theorem stations_managed (apart : stations.Nodup) (settings : Settings) :
    (settings.validate ≠ .ok () ∨ stations = [] →
      ∃ error, launch settings stations = .error error ∧ ∀ places machines, places.keys = stations →
        Session.Site.launch settings places machines =
          (.error error, ⟨none, true, settings.clientTimeout, places, machines, .empty⟩, [])) ∧
    (settings.validate = .ok () → stations ≠ [] →
      ∃ begun, launch settings stations = .ok (.opened stations settings.workers, begun) ∧
        ∀ actions events s, Run (.opened stations settings.workers) actions events s →
          Managed stations (begun ++ events) s) := by
  constructor
  · intro unfit
    have refused : ∃ error, launch settings stations = .error error := by
      cases valid : settings.validate with
      | error error => exact ⟨_, launch_refused valid⟩
      | ok =>
        obtain rfl := unfit.resolve_left (not_not_intro valid)
        exact ⟨.noStations, by rw [launch, valid]; rfl⟩
    obtain ⟨error, refused⟩ := refused
    refine ⟨error, refused, ?_⟩
    rintro places machines rfl
    simp only [Session.Site.launch, refused]
  · intro valid some
    exact ⟨_, launch_valid valid some,
      fun actions events s run => managed apart (.opened apart settings.workers) run⟩

-- That day the burger station is stopped once; without workers it would not have been started.
theorem closingDay_managed :
    (∃ error, launch { Settings.default with workers := 0 } ["burger"] = .error error) ∧
      ∃ begun, launch { Settings.default with workers := 1 } ["burger"] =
          .ok (.opened ["burger"] 1, begun) ∧
        (stationCalls "burger" (begun ++ ((State.opened ["burger"] 1).after closingDay).2 ++
          [.noticed (.shutdownComplete ⟨1, 1, 1, 0, 0⟩),
            .replied 2 (.reports [⟨[["burger"]], [["burger"]], [], []⟩])])).count .stop = 1 := by
  have apart : ["burger"].Nodup := by decide
  obtain ⟨unfit, _⟩ := stations_managed apart { Settings.default with workers := 0 }
  obtain ⟨_, fit⟩ := stations_managed apart { Settings.default with workers := 1 }
  obtain ⟨error, refused, _⟩ := unfit (.inl (by simp [Settings.validate]))
  obtain ⟨begun, launched, all⟩ := fit (by rfl) (by simp)
  refine ⟨⟨error, refused⟩, begun, launched, ?_⟩
  exact (all _ _ _ (run_after closingDay_possible)).stopped 2 _ _ _ closingDay_stopping
    closingDay_last (.head _) "burger" (.head _)

end Kitchen.Engine
