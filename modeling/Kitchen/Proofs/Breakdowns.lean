import Kitchen.Proofs.Drain
import Kitchen.Proofs.Lines
import Kitchen.Proofs.Tallies

namespace Kitchen.Engine

variable {s t : State} {action : Action} {actions later : List Action} {events more : List Event}
  {call : CallId} {id : OrderId} {i j n : Nat} {order : Order} {old : WorkerPhase}
  {was : RunnerPhase} {stations : List String} {workers : Nat} {station : String} {ref : JobRef}
  {job : Job JobRef}

def Event.brokenDown? : Event → Option String
  | .noticed (.stationFailed station _ _ _) => some station
  | _ => none

-- The stations that were taken off the menu, as the operator is told.
def brokenDown (events : List Event) : List String := events.filterMap Event.brokenDown?

theorem brokenDown_append (events more : List Event) :
    brokenDown (events ++ more) = brokenDown events ++ brokenDown more :=
  List.filterMap_append

def Listed (stations : List String) (events : List Event) (s : State) : Prop :=
  s.board.closed = false → s.board.menu = stations.filter fun station => station ∉ brokenDown events

namespace Listed

theorem same (listed : Listed stations events s) (menu : t.board.menu = s.board.menu)
    (closed : t.board.closed = s.board.closed) (silent : brokenDown more = []) :
    Listed stations (events ++ more) t := by
  rw [Listed, menu, closed, brokenDown_append, silent, List.append_nil]
  exact listed

theorem remove (listed : Listed stations events s)
    (menu : t.board.menu = (s.board.removeFromMenu station).menu)
    (closed : t.board.closed = s.board.closed) (tells : brokenDown more = [station]) :
    Listed stations (events ++ more) t := by
  intro unclosed
  rw [menu, Board.removeFromMenu, listed (closed.symm.trans unclosed), List.filter_filter,
    brokenDown_append, tells]
  refine List.filter_congr fun other _ => ?_
  simp [and_comm]

theorem pager_quiet (move : PagerMove s call id use stage t more) : brokenDown more = [] := by
  rcases move.answers with rfl | ⟨_, rfl⟩ | ⟨_, rfl⟩ | rfl <;> rfl

theorem step (listed : Listed stations events s) (step : Transition s action t more) :
    Listed stations (events ++ more) t := by
  cases step with
  | worker _ move =>
    cases move with
    | @dispatch order =>
      obtain ⟨_, _, _, spread⟩ := s.spread_frame order
      have silent := spread_shows s order Event.brokenDown? fun _ _ => rfl
      refine listed.same ?_ ?_ ?_
      · change (s.spread order).1.board.menu = _
        rw [spread]
        rfl
      · change (s.spread order).1.board.closed = _
        rw [spread]
        rfl
      · rw [brokenDown, List.filterMap_append, silent]
        rfl
    | _ => exact listed.same rfl rfl rfl
  | runner _ move =>
    cases move with
    | breakDown | breakDownQueueless => exact listed.remove rfl rfl rfl
    | handOver =>
      refine listed.same rfl rfl ?_
      simp only [brokenDown, List.filterMap_cons, Event.brokenDown?]
      split <;> rfl
    | _ => exact listed.same rfl rfl rfl
  | client move =>
    cases move with
    | usePager _ move => exact listed.same (by rw [move.frame.1]) (by rw [move.frame.1]) (pager_quiet move)
    | _ => exact listed.same rfl rfl rfl
  | shutdown _ move =>
    cases move with
    | close => simp [Listed, State.setCall, State.withBoard]
    | joinRunner _ ended => rcases ended with ⟨_, rfl⟩ | ⟨_, rfl⟩ <;> exact listed.same rfl rfl rfl
    | _ => exact listed.same rfl rfl rfl

theorem run (run : Run (.opened stations workers) actions events t) : Listed stations events t := by
  induction run with
  | start =>
    intro _
    simp [State.opened, brokenDown]
  | next _ ran ih => exact ih.step (transition_of_step ran)

end Listed

theorem closed_stays (run : Run s actions events t) (closed : s.board.closed = true) :
    t.board.closed = true := by
  induction run with
  | start => exact closed
  | next _ ran ih => exact (transition_of_step ran).stays_closed ih

-- An order that names what is not on the menu is refused and leaves everything as it is.
theorem order_refused (missing : station ∉ s.board.menu) (wanted : station ∈ products)
    (woken : Option Nat) : ∃ error notices,
      s.step (.order products woken) = some (s, .refused products error :: notices) ∧
      (s.board.closed = true ∧ error = .closed ∨ s.board.closed = false ∧
        ∃ product ∈ products, product ∉ s.board.menu ∧ error = .invalidProduct product) := by
  simp only [State.step, State.order]
  cases closed : s.board.closed with
  | true => exact ⟨_, _, rfl, .inl ⟨rfl, rfl⟩⟩
  | false =>
    have some : (State.firstMissing s.board.menu products).isSome = true := by
      rw [State.firstMissing, List.find?_isSome]
      exact ⟨station, wanted, by simpa using missing⟩
    obtain ⟨product, found⟩ := Option.isSome_iff_exists.mp some
    have member := List.mem_of_find?_eq_some found
    have absent := List.find?_some found
    rw [found]
    exact ⟨_, _, rfl, .inr ⟨rfl, product, member, by simpa using absent, rfl⟩⟩

def State.broken (s : State) (station : String) : Prop :=
  ∀ runner ∈ s.runners, runner.station = station → runner.outOfService = true

namespace Broken

theorem map (broken : s.broken station) (f : Runner → Runner) (runners : t.runners = s.runners.map f)
    (same : ∀ runner, (f runner).station = runner.station ∧
      (f runner).outOfService = runner.outOfService) : t.broken station := by
  intro runner member place
  rw [runners] at member
  obtain ⟨before, was, rfl⟩ := List.mem_map.mp member
  rw [(same before).2]
  exact broken before was ((same before).1.symm.trans place)

theorem same (broken : s.broken station) (runners : t.runners = s.runners) : t.broken station :=
  map broken id (by rw [runners, List.map_id]) fun _ => ⟨rfl, rfl⟩

theorem set {before now : Runner} (broken : s.broken station) (here : s.runners[i]? = some before)
    (runners : t.runners = s.runners.set i now) (place : now.station = before.station)
    (stays : before.outOfService = true → now.outOfService = true) : t.broken station := by
  intro runner member mine
  rw [runners] at member
  rcases List.mem_or_eq_of_mem_set member with old | rfl
  · exact broken runner old mine
  · exact stays (broken before (List.mem_of_getElem? here) (place.symm.trans mine))

theorem step (broken : s.broken station) (step : Transition s action t more) : t.broken station := by
  cases step with
  | worker _ move =>
    cases move with
    | @dispatch order =>
      obtain ⟨woken, runners⟩ := spread_runners s order
      refine map broken _ runners fun runner => ?_
      split
      · exact ⟨wakeRunner_station runner, (Service.wakeRunner_same runner).2.1⟩
      · exact ⟨rfl, rfl⟩
    | _ => exact same broken rfl
  | runner here move =>
    cases move with
    | fault => exact set broken here rfl rfl fun _ => rfl
    | _ => exact set broken here rfl rfl id
  | client move =>
    cases move with
    | usePager _ move => exact same broken move.frame.2.2.1
    | _ => exact same broken rfl
  | shutdown _ move =>
    cases move with
    | wakeStations | wakeReleased =>
      exact map broken State.wakeRunner rfl fun runner =>
        ⟨wakeRunner_station runner, (Service.wakeRunner_same runner).2.1⟩
    | _ => exact same broken rfl

theorem run (broken : s.broken station) (run : Run s actions events t) : t.broken station := by
  induction run with
  | start => exact broken
  | next _ ran ih => exact step ih (transition_of_step ran)

theorem of_fault {m : State} {calls : Nat} (steady : Steady stations s) (apart : stations.Nodup)
    (here : s.runners[j]? = some ⟨station, .producing job, out, calls⟩)
    (fault : s.step (.produced j (.broke error)) = some (m, more)) :
    m.broken station ∧ ⟨station, .failing job error, true, calls⟩ ∈ m.runners := by
  simp only [State.step, State.stepProduced, here] at fault
  cases fault
  have inside := (List.getElem?_eq_some_iff.mp here).1
  refine ⟨?_, List.mem_of_getElem? (List.getElem?_set_self inside)⟩
  intro runner member place
  obtain ⟨k, there⟩ := List.getElem?_of_mem member
  rcases getElem?_set_cases there with ⟨_, rfl⟩ | ⟨differ, before⟩
  · rfl
  · exact absurd (steady.stock.runner_inj apart before here place) differ

-- A station that broke down is not asked for anything.
theorem unasked (broken : s.broken station) (steady : Steady stations s)
    (step : Transition s action t more) : .called station .produce ∉ more := by
  cases step with
  | worker here move =>
    cases move with
    | @dispatch order =>
      have known := steady.stock.held _ (List.mem_of_getElem? here) order rfl
      rw [(spread_spread steady.stock known).1]
      simp
    | _ => simp
  | runner here move =>
    cases move with
    | ask sound =>
      intro asked
      cases List.mem_singleton.mp asked
      cases sound.symm.trans (broken _ (List.mem_of_getElem? here) rfl)
    | handOver =>
      split <;> simp
    | _ => simp
  | client move =>
    cases move with
    | usePager _ move => exact List.count_eq_zero.mp (Tallied.pager_unasked move)
    | _ => simp
  | shutdown _ move =>
    cases move with
    | joinRunner _ ended => rcases ended with ⟨_, rfl⟩ | ⟨_, rfl⟩ <;> simp
    | _ => simp

-- A product that is handed over comes from another station and was ordered there.
theorem elsewhere {item : Item} (broken : s.broken station) (steady : Steady stations s)
    (all : Placed events s) (step : Transition s action t more)
    (shown : (ref, .made item) ∈ resolutions more) :
    ∃ other, other ≠ station ∧ Wanted events ref other := by
  cases step with
  | worker here move =>
    rw [worker_resolves steady.stock here move] at shown
    cases shown
  | @runner _ other _ _ _ _ _ _ here move =>
    have member := List.mem_of_getElem? here
    cases move with
    | @handOver job item =>
      simp only [resolutions, List.filterMap_cons, Event.resolved?] at shown
      rcases List.mem_cons.mp shown with same | none
      · cases same
        refine ⟨other, ?_, (steady.jobs.carried _ member job (.head _)).wanted all⟩
        rintro rfl
        cases (broken _ member rfl).symm.trans (steady.service.fits _ member false rfl)
      · split at none <;> cases none
    | refuse _ result =>
      subst result
      simp [resolutions, Event.resolved?] at shown
    | _ => simp [resolutions, Event.resolved?] at shown
  | client move =>
    rw [client_resolves move] at shown
    cases shown
  | shutdown _ move =>
    rw [shutdown_resolves move] at shown
    cases shown

end Broken

-- What a station that broke down does from there on: it is never asked, and what is handed over is not
-- for one of its jobs.
theorem silent_run (apart : stations.Nodup) (before : Run (.opened stations workers) actions events s)
    (broken : s.broken station) (run : Run s later more t) :
    .called station .produce ∉ more ∧ ∀ ref item, (ref, .made item) ∈ resolutions more →
      ∃ other, other ≠ station ∧ Wanted (events ++ more) ref other := by
  induction run with
  | start => exact ⟨by simp, by simp [resolutions]⟩
  | @next earlier seen shown middle _ _ since ran ih =>
    obtain ⟨unasked, elsewhere⟩ := ih
    have whole := before.append since
    have steady := Steady.opened apart whole
    have now := Broken.run broken since
    refine ⟨?_, ?_⟩
    · intro asked
      rcases List.mem_append.mp asked with old | new
      · exact unasked old
      · exact Broken.unasked now steady (transition_of_step ran) new
    · intro ref item told
      rw [resolutions_append] at told
      rw [← List.append_assoc]
      rcases List.mem_append.mp told with old | new
      · obtain ⟨other, differ, wanted⟩ := elsewhere ref item old
        exact ⟨other, differ, wanted.mono shown⟩
      · obtain ⟨other, differ, wanted⟩ :=
          Broken.elsewhere now steady (Placed.run whole) (transition_of_step ran) new
        exact ⟨other, differ, wanted.mono shown⟩

-- A runner that has left has no job, and none is on its station's queue.
theorem not_left {heard : Bool} (steady : Steady stations s) (apart : stations.Nodup)
    (all : Placed events s) (wanted : Wanted events ref station)
    (waiting : s.jobs.get? ref = some ⟨.waiting, heard⟩) :
    ∀ runner ∈ s.runners, runner.station = station → runner.phase ≠ .finished := by
  rintro runner member rfl finished
  rcases steady.jobs.located steady.stock apart waiting with
    ⟨j, other, here, job, has, rfl⟩ | ⟨place, queue, found, job, has, rfl⟩
  · have among := List.mem_of_getElem? here
    have mine := (steady.jobs.carried other among job has).wanted all
    cases steady.runner_unique apart among member (mine.unique all wanted)
    rw [finished] at has
    cases has
  · have mine := (steady.jobs.queued place queue found job has).wanted all
    cases mine.unique all wanted
    rw [(steady.sleepers.left runner member finished).2 queue found] at has
    cases has

-- The job never gets a product: it was answered with an error, once, or it is not answered and the
-- station's runner is still there to do so.
def Doomed (station : String) (ref : JobRef) (events : List Event) (s : State) : Prop :=
  (∃ error, resultsOf ref events = [.broke error]) ∨
  resultsOf ref events = [] ∧ s.jobs.get? ref = some .fresh ∧
    ∀ runner ∈ s.runners, runner.station = station → runner.phase ≠ .finished

theorem doomed_of_broken (apart : stations.Nodup)
    (before : Run (.opened stations workers) actions events s) (broken : s.broken station)
    (waiting : s.jobs.get? ref = some ⟨.waiting, true⟩) (wanted : Wanted events ref station)
    (run : Run s later more t) (sound : ∀ index, .produced index .crashed ∉ actions ++ later) :
    Doomed station ref (events ++ more) t := by
  have whole := before.append run
  have steady := Steady.opened apart whole
  have all := Placed.run whole
  have dropped := abandoned_sound whole sound
  have spoken := Said.run whole ref
  rw [dropped] at spoken
  obtain ⟨⟨content, heard⟩, found⟩ :=
    kept_run ((Stock.opened stations workers).run before) run ref _ waiting
  have unsaid := (Said.run before).nothing_said waiting
  obtain ⟨nothing, _⟩ := List.append_eq_nil_iff.mp unsaid
  have first : resultsOf ref events = [] := List.map_eq_nil_iff.mp nothing
  have words : said (events ++ more) [] ref = (resultsOf ref (events ++ more)).map some := by
    simp [said]
  -- A product would be for a job of another station.
  have broke : ∀ result, resultsOf ref (events ++ more) = [result] → ∃ error, result = .broke error := by
    intro result results
    rw [resultsOf_append, first, List.nil_append] at results
    cases result with
    | broke error => exact ⟨error, rfl⟩
    | made item =>
      have shown : some (.made item) ∈ said more [] ref := by
        simp [said, results]
      obtain ⟨other, differ, asked⟩ :=
        (silent_run apart before broken run).2 ref item (mem_said.mp shown)
      exact absurd (asked.unique all (wanted.mono more)) differ
  have answered : ∀ word, (resultsOf ref (events ++ more)).map some = [word] →
      Doomed station ref (events ++ more) t := by
    intro word results
    obtain ⟨one, only, _⟩ := List.map_eq_singleton_iff.mp results
    obtain ⟨error, rfl⟩ := broke one only
    exact .inl ⟨error, only⟩
  rw [found, words] at spoken
  cases content with
  | waiting =>
    have results := spoken.unsaid
    cases steady.jobs.heard ref _ found
    exact .inr ⟨List.map_eq_nil_iff.mp results, found,
      not_left steady apart all (wanted.mono more) found⟩
  | holding result => exact answered _ spoken.held
  | closed =>
    generalize words : (resultsOf ref (events ++ more)).map some = results at spoken
    cases spoken
    exact answered _ words

-- Such a job is the one over which the station broke down, and each that is on its queue then or later.
theorem doomed_of_fault {m u : State} {calls : Nat} {shown seen : List Event} {earlier : List Action}
    (apart : stations.Nodup) (before : Run (.opened stations workers) actions events s)
    (here : s.runners[j]? = some ⟨station, .producing job, out, calls⟩)
    (fault : s.step (.produced j (.broke error)) = some (m, shown)) (since : Run m earlier seen u)
    (after : Run u later more t) (sound : ∀ index, .produced index .crashed ∉ actions ++ earlier ++ later)
    (mine : ref = job.slot ∨ ∃ other, u.stands station other ∧ other.slot = ref) :
    Doomed station ref (events ++ shown ++ seen ++ more) t := by
  have failed : Run (.opened stations workers) _ _ m := .next before fault
  obtain ⟨broken, holds⟩ := Broken.of_fault (Steady.opened apart before) apart here fault
  have calm : ∀ index, .produced index .crashed ∉
      actions ++ [.produced j (.broke error)] ++ earlier ++ later := by
    intro index crashed
    refine sound index ?_
    simpa using crashed
  rcases mine with rfl | ⟨other, ⟨queue, found, member⟩, rfl⟩
  · have steady := Steady.opened apart failed
    rw [List.append_assoc _ seen more]
    refine doomed_of_broken apart failed broken (steady.jobs.waiting_carried holds (.head _)) ?_
      (since.append after) (by simpa using calm)
    exact (steady.jobs.carried _ holds job (.head _)).wanted (Placed.run failed)
  · have whole := failed.append since
    have steady := Steady.opened apart whole
    refine doomed_of_broken apart whole (Broken.run broken since)
      (steady.jobs.waiting_queued found member) ?_ after calm
    exact (steady.jobs.queued station queue found other member).wanted (Placed.run whole)

-- A station that breaks down at its `n`-th call makes so many products and is asked once more, as far as
-- it has jobs.
theorem tally_of_left (apart : stations.Nodup) (known : station ∈ stations)
    (run : Run (.opened stations workers) actions events s)
    (fails : FailsFrom station n ((State.opened stations workers).attempts actions))
    (left : ∀ runner ∈ s.runners, runner.station = station → runner.phase = .finished) :
    let jobs := ((State.opened stations workers).posted actions).countP (·.2 = station)
    (resolutions events).countP (handed station) = min n jobs ∧
      events.count (.called station .produce) = min (n + 1) jobs := by
  obtain ⟨runner, member, place, queue, present, asked, made, sound, broken⟩ :=
    Tallied.run apart known run fails
  have finished := left runner member place
  have idle := ((Steady.opened apart run).sleepers.left runner member finished).2
  have empty : queue.size = 0 := List.length_eq_zero_iff.mpr (idle queue (place ▸ present))
  rw [finished] at made sound
  rw [empty] at sound broken
  simp only [RunnerPhase.owing, RunnerPhase.chosen, RunnerPhase.asking] at made sound
  cases service : runner.outOfService with
  | false =>
    rw [service, if_neg (by simp)] at made
    have few := sound service
    omega
  | true =>
    rw [service, if_pos rfl] at made
    have few := broken service
    omega

-- A station that breaks down is never asked again. Its menu entry is gone for good, whoever names it in an
-- order is refused, and each job that it has then or gets later is answered with an error by the time its
-- runner leaves, and once. The menu of the others stays. So a station that breaks down at its `n`-th call
-- makes `n` of its products, or all if there are fewer jobs.
theorem breakdowns_are_final (apart : stations.Nodup)
    (run : Run (.opened stations workers) actions events s) :
    let first := State.opened stations workers
    (s.board.closed = false → s.board.menu = stations.filter (· ∉ brokenDown events)) ∧
    (s.board.closed = true → ∀ later more t, Run s later more t →
      t.board.closed = true ∧ t.board.menu = []) ∧
    (∀ station ∈ brokenDown events, station ∉ s.board.menu ∧
      ∀ products woken, station ∈ products → ∃ error notices,
        s.step (.order products woken) = some (s, .refused products error :: notices) ∧
        (s.board.closed = true ∧ error = .closed ∨ s.board.closed = false ∧
          ∃ product ∈ products, product ∉ s.board.menu ∧ error = .invalidProduct product)) ∧
    (∀ (j : Nat) (station : String) (job : Job JobRef) (out : Bool) (calls : Nat) (error : StationError)
      (m : State) (shown : List Event), s.runners[j]? = some ⟨station, .producing job, out, calls⟩ →
      s.step (.produced j (.broke error)) = some (m, shown) →
      ∀ earlier seen u later more t, Run m earlier seen u → Run u later more t →
        (∀ index, .produced index .crashed ∉ actions ++ earlier ++ later) →
        .called station .produce ∉ seen ++ more ∧
        ∀ ref, (ref = job.slot ∨ ∃ other, u.stands station other ∧ other.slot = ref) →
          Doomed station ref (events ++ shown ++ seen ++ more) t) ∧
    ((resolutions events).map (·.1)).Nodup ∧
    (∀ ref item, (ref, .made item) ∈ resolutions events → Wanted events ref item.maker) ∧
    ∀ (station : String) (n : Nat), station ∈ stations → FailsFrom station n (first.attempts actions) →
      (∀ runner ∈ s.runners, runner.station = station → runner.phase = .finished) →
      let jobs := (first.posted actions).countP (·.2 = station)
      (resolutions events).countP (handed station) = min n jobs ∧
        events.count (.called station .produce) = min (n + 1) jobs := by
  intro first
  have steady := Steady.opened apart run
  have listed := Listed.run run
  refine ⟨listed, ?_, ?_, ?_, (Said.run run).resolved_once, ?_, ?_⟩
  · intro closed later more t since
    have still := closed_stays since closed
    exact ⟨still, (Steady.opened apart (run.append since)).service.closed still⟩
  · intro station gone
    have missing : station ∉ s.board.menu := by
      cases closed : s.board.closed with
      | true => simp [steady.service.closed closed]
      | false => simp [listed closed, gone]
    exact ⟨missing, fun products woken wanted => order_refused missing wanted woken⟩
  · intro j station job out calls error m shown here fault earlier seen u later more t since after sound
    have failed : Run (.opened stations workers) _ _ m := .next run fault
    have broken := (Broken.of_fault steady apart here fault).1
    refine ⟨(silent_run apart failed broken (since.append after)).1, ?_⟩
    exact fun ref mine => doomed_of_fault apart run here fault since after sound mine
  · intro ref item shown
    exact wanted_of_made run ((Sourced.run run).sent ref item shown)
  · intro station n known fails left
    exact tally_of_left apart known run fails left

-- An order of three burgers. The first is made, and over the second the station breaks down.
def burgerMorning : List Action :=
  [.worker 0, .runner 0, .order ["burger", "burger", "burger"] none, .worker 0, .worker 0, .runner 0,
    .runner 0, .produced 0 (.made .burger), .runner 0, .runner 0, .runner 0]

-- The runner tells the worker, which gives the one burger back. Then the kitchen closes.
def burgerNoon : List Action :=
  [.runner 0, .runner 0, .runner 0, .runner 0] ++
    [.worker 0, .worker 0, .worker 0, .worker 0, .worker 0, .returned 0 .accepted, .worker 0] ++
    [.shutdown 2, .client 2, .client 2, .client 2, .worker 0, .client 2, .client 2, .client 2, .runner 0]

def burgerFault : Action := .produced 0 (.broke (.failure "out of gas"))

theorem burgerDay_final :
    let first := State.opened ["burger", "fries"] 1
    let second : Job JobRef := ⟨0, 1, ⟨0, 1⟩⟩
    let s := first.after burgerMorning
    let m := s.1.after [burgerFault]
    let t := m.1.after burgerNoon
    let events := s.2 ++ m.2 ++ t.2
    s.1.runners[0]? = some ⟨"burger", .producing second, false, 2⟩ ∧
    Doomed "burger" ⟨0, 1⟩ events t.1 ∧ Doomed "burger" ⟨0, 2⟩ events t.1 ∧
    (first.posted (burgerMorning ++ [burgerFault] ++ burgerNoon)).countP (·.2 = "burger") = 3 ∧
    (resolutions events).countP (handed "burger") = 1 ∧ events.count (.called "burger" .produce) = 2 := by
  intro first second s m t events
  have begun : Run first burgerMorning s.2 s.1 := run_after (by decide +kernel)
  have fault : s.1.step burgerFault = some (m.1, m.2) := by decide +kernel
  have rest : Run m.1 burgerNoon t.2 t.1 := run_after (by decide +kernel)
  have whole : Run first (burgerMorning ++ [burgerFault] ++ burgerNoon) events t.1 :=
    (Run.next begun fault).append rest
  have here : s.1.runners[0]? = some ⟨"burger", .producing second, false, 2⟩ := by decide +kernel
  have attempts : first.attempts (burgerMorning ++ [burgerFault] ++ burgerNoon) =
      [("burger", 0, .made .burger), ("burger", 1, .broke (.failure "out of gas"))] := by
    decide +kernel
  have fails : FailsFrom "burger" 1 (first.attempts (burgerMorning ++ [burgerFault] ++ burgerNoon)) := by
    intro call outcome attempted
    rw [attempts] at attempted
    rcases List.mem_pair.mp attempted with same | same <;> cases same
    · exact .inl ⟨by decide, _, rfl⟩
    · exact .inr ⟨by decide, _, rfl⟩
  have posted : (first.posted (burgerMorning ++ [burgerFault] ++ burgerNoon)).countP
      (·.2 = "burger") = 3 := by
    decide +kernel
  have sound : ∀ index, .produced index .crashed ∉ burgerMorning ++ [] ++ burgerNoon := by
    simp [burgerMorning, burgerNoon]
  obtain ⟨_, _, _, dooms, _⟩ := breakdowns_are_final (by decide) begun
  obtain ⟨_, doomed⟩ := dooms 0 "burger" second false 2 _ m.1 m.2 here fault [] [] m.1 burgerNoon t.2 t.1
    .start rest sound
  obtain ⟨_, _, _, _, _, _, tally⟩ := breakdowns_are_final (by decide) whole
  obtain ⟨made, asked⟩ := tally "burger" 1 (by decide) fails (by decide +kernel)
  rw [posted] at made asked
  have third : m.1.stands "burger" ⟨0, 2, ⟨0, 2⟩⟩ :=
    ⟨⟨[⟨0, 2, ⟨0, 2⟩⟩], 3⟩, by decide +kernel, .head _⟩
  rw [List.append_nil] at doomed
  exact ⟨here, doomed ⟨0, 1⟩ (.inl rfl), doomed ⟨0, 2⟩ (.inr ⟨_, third, rfl⟩), posted, made, asked⟩

end Kitchen.Engine
