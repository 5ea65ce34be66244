import Kitchen.Proofs.Resolutions
import Kitchen.Proofs.Stranding

-- How many jobs a station gets, how often it is asked to produce and how many products it hands over,
-- where it breaks down at a given call and never before.

namespace Kitchen.Engine

variable {s t : State} {action : Action} {actions : List Action} {events more : List Event}
  {call : CallId} {id : OrderId} {i n : Nat} {report : Report} {order : Order} {old : WorkerPhase}
  {was : RunnerPhase} {stations : List String} {workers : Nat} {station : String}

namespace State

def posts (s : State) : Action → List (JobRef × String)
  | .worker index =>
    match s.workers[index]? with
    | some ⟨.claimed order, _⟩ =>
      order.products.zipIdx.map fun (product, position) => (⟨order.id, position⟩, product)
    | _ => []
  | _ => []

def posted (s : State) (actions : List Action) : List (JobRef × String) := along State.posts s actions

-- What a station makes of a call in this step, with the number of calls before it.
def attempt (s : State) : Action → List (String × Nat × Production)
  | .produced index outcome =>
    match s.runners[index]? with
    | some ⟨station, .producing _, _, calls⟩ => [(station, calls - 1, outcome)]
    | _ => []
  | _ => []

def attempts (s : State) (actions : List Action) : List (String × Nat × Production) :=
  along State.attempt s actions

end State

theorem posted_next (run : Run s actions events t) (action : Action) :
    s.posted (actions ++ [action]) = s.posted actions ++ t.posts action :=
  along_next State.posts run action

theorem attempts_next (run : Run s actions events t) (action : Action) :
    s.attempts (actions ++ [action]) = s.attempts actions ++ t.attempt action :=
  along_next State.attempt run action

def FailsFrom (station : String) (n : Nat) (attempts : List (String × Nat × Production)) : Prop :=
  ∀ call outcome, (station, call, outcome) ∈ attempts →
    call < n ∧ (∃ product, outcome = .made product) ∨ n ≤ call ∧ ∃ error, outcome = .broke error

def handed (station : String) : JobRef × JobResult → Bool
  | (_, .made item) => item.maker = station
  | (_, .broke _) => false

theorem dispatchJob_size (stock : Stock stations s) (known : product ∈ stations) (id : OrderId)
    (position : Nat) (present : s.board.queues.get? station = some queue) :
    ∃ longer, (s.dispatchJob id position product).1.board.queues.get? station = some longer ∧
      longer.size = queue.size + if product = station then 1 else 0 := by
  obtain ⟨first, found⟩ := stock.queue known
  unfold State.dispatchJob
  rw [found, (stock.hasStation_iff product).mpr known]
  by_cases mine : product = station
  · subst mine
    cases present.symm.trans found
    refine ⟨_, Table.get?_insert_self .., ?_⟩
    simp [JobQueue.size, JobQueue.push]
  · refine ⟨queue, (Table.get?_insert_of_ne _ _ mine).trans present, ?_⟩
    simp [mine]

theorem dispatchFrom_size (stock : Stock stations s) (known : ∀ product ∈ products, product ∈ stations)
    (id : OrderId) (position : Nat) (present : s.board.queues.get? station = some queue) :
    ∃ longer, (s.dispatchFrom id position products).1.board.queues.get? station = some longer ∧
      longer.size = queue.size + products.count station := by
  induction products generalizing s queue position with
  | nil => exact ⟨queue, present, rfl⟩
  | cons product rest ih =>
    have here := known product (.head _)
    obtain ⟨one, place, size⟩ := dispatchJob_size stock here id position present
    obtain ⟨longer, found, more⟩ := ih (stock.dispatchJob here id position)
      (fun other member => known other (List.mem_cons_of_mem _ member)) (position + 1) place
    refine ⟨longer, found, ?_⟩
    rw [more, size, List.count_cons]
    simp only [beq_iff_eq]
    omega

theorem countP_posts (here : s.workers[i]? = some ⟨.claimed order, report⟩) (station : String) :
    (s.posts (.worker i)).countP (·.2 = station) = order.products.count station := by
  rw [List.count, ← List.zipIdx_map_fst 0 order.products, List.countP_map]
  simp [State.posts, here, List.countP_map, Function.comp_def, Bool.beq_eq_decide_eq]

-- The runner took the job and has not asked the station yet.
def RunnerPhase.chosen : RunnerPhase → Nat
  | .serving _ => 1
  | _ => 0

-- The station was asked and has not answered.
def RunnerPhase.asking : RunnerPhase → Nat
  | .producing _ => 1
  | _ => 0

-- The station was asked, and the product is not handed over.
def RunnerPhase.owing : RunnerPhase → Nat
  | .producing _ | .holding _ _ => 1
  | _ => 0

-- While the station works, each job was taken from the queue and asked for, in turn. The call at which it
-- breaks down is its last.
structure Tally (n jobs asked made : Nat) (runner : Runner) (waiting : Nat) : Prop where
  asked : asked = runner.calls
  made : made + (if runner.outOfService then 1 else runner.phase.owing) = runner.calls
  sound : runner.outOfService = false → jobs = waiting + runner.calls + runner.phase.chosen ∧
    runner.calls ≤ n + runner.phase.asking
  broken : runner.outOfService = true → waiting + runner.calls ≤ jobs ∧ runner.calls = n + 1

namespace Tally

variable {jobs asked made waiting fewer calls : Nat} {out : Bool} {now : RunnerPhase} {job : Job JobRef}
  {item : Item} {error : StationError} {queue : JobQueue JobRef}

theorem opened (n : Nat) (station : String) : Tally n 0 0 0 ⟨station, .starting, false, 0⟩ 0 :=
  ⟨rfl, rfl, fun _ => ⟨rfl, Nat.zero_le _⟩, by simp⟩

-- The runner goes on without a word of its station, and at most takes a job.
theorem rest (tally : Tally n jobs asked made ⟨station, was, out, calls⟩ waiting)
    (owing : now.owing = was.owing) (asking : now.asking = was.asking) (less : fewer ≤ waiting)
    (left : fewer + now.chosen = waiting + was.chosen ∨ out = true) :
    Tally n jobs asked made ⟨station, now, out, calls⟩ fewer := by
  obtain ⟨asks, makes, sound, broken⟩ := tally
  dsimp only at asks makes sound broken
  refine ⟨asks, ?_, fun works => ?_, fun fails => ?_⟩
  · rw [← makes, ← owing]
  · replace works : out = false := works
    have few := sound works
    have same := left.resolve_right (by simp [works])
    dsimp only
    omega
  · have few := broken fails
    dsimp only
    omega

theorem working : Tally n jobs asked made ⟨station, was, false, calls⟩ waiting ↔
    asked = calls ∧ made + was.owing = calls ∧ jobs = waiting + calls + was.chosen ∧
      calls ≤ n + was.asking := by
  constructor
  · rintro ⟨asks, makes, sound, _⟩
    exact ⟨asks, by simpa using makes, sound rfl⟩
  · rintro ⟨asks, makes, sound⟩
    exact ⟨asks, by simpa using makes, fun _ => sound, by simp⟩

theorem ask (tally : Tally n jobs asked made ⟨station, .serving job, false, calls⟩ waiting) :
    Tally n jobs (asked + 1) made ⟨station, .producing job, false, calls + 1⟩ waiting := by
  rw [working] at tally ⊢
  simp only [RunnerPhase.owing, RunnerPhase.chosen, RunnerPhase.asking] at tally ⊢
  omega

theorem make (tally : Tally n jobs asked made ⟨station, .producing job, false, calls⟩ waiting)
    (early : calls - 1 < n) : Tally n jobs asked made ⟨station, .holding job item, false, calls⟩ waiting := by
  rw [working] at tally ⊢
  simp only [RunnerPhase.owing, RunnerPhase.chosen, RunnerPhase.asking] at tally ⊢
  omega

-- The call at which the station breaks down is its `n`-th.
theorem fault (tally : Tally n jobs asked made ⟨station, .producing job, false, calls⟩ waiting)
    (late : n ≤ calls - 1) : Tally n jobs asked made ⟨station, .failing job error, true, calls⟩ waiting := by
  obtain ⟨asks, makes, left, few⟩ := working.mp tally
  simp only [RunnerPhase.owing, RunnerPhase.chosen, RunnerPhase.asking] at makes left few
  refine ⟨asks, makes, by simp, fun _ => ?_⟩
  dsimp only
  omega

theorem handOver (tally : Tally n jobs asked made ⟨station, .holding job item, false, calls⟩ waiting) :
    Tally n jobs asked (made + 1) ⟨station, .idle, false, calls⟩ waiting := by
  rw [working] at tally ⊢
  simp only [RunnerPhase.owing, RunnerPhase.chosen, RunnerPhase.asking] at tally ⊢
  omega

theorem seeks_idle (seeks : was.seeks = true) : was.owing = 0 ∧ was.asking = 0 ∧ was.chosen = 0 := by
  cases was <;> first | exact ⟨rfl, rfl, rfl⟩ | cases seeks

-- One step of the station's runner.
theorem runner (tally : Tally n jobs asked made ⟨station, was, out, calls⟩ queue.size)
    (present : s.board.queues.get? station = some queue)
    (fits : ∀ broken, was.broken? = some broken → out = broken)
    (handed : ∀ job item, was = .holding job item → item.maker = station)
    (here : s.runners[i]? = some ⟨station, was, out, calls⟩)
    (fails : FailsFrom station n (s.attempt action))
    (move : RunnerMove s i station out calls was action t more) :
    ∃ now later, t.runners = s.runners.set i now ∧ t.board.queues.get? station = some later ∧
      Tally n jobs (asked + more.count (.called station .produce))
        (made + (resolutions more).countP (Engine.handed station)) now later.size := by
  have quiet : ∀ {now : Runner} {later : JobQueue JobRef}, t.runners = s.runners.set i now →
      t.board.queues.get? station = some later → more.count (.called station .produce) = 0 →
      (resolutions more).countP (Engine.handed station) = 0 → Tally n jobs asked made now later.size →
      ∃ now later, t.runners = s.runners.set i now ∧ t.board.queues.get? station = some later ∧
        Tally n jobs (asked + more.count (.called station .produce))
          (made + (resolutions more).countP (Engine.handed station)) now later.size := by
    intro now later runners found silent nothing tally
    rw [silent, nothing]
    exact ⟨now, later, runners, found, tally⟩
  cases move with
  | take seeks there popped =>
    cases present.symm.trans there
    have size := JobQueue.size_pop popped
    obtain ⟨owing, asking, chosen⟩ := seeks_idle seeks
    refine quiet rfl (Table.get?_insert_self ..) rfl rfl
      (tally.rest owing.symm asking.symm (by omega) (.inl ?_))
    rw [chosen]
    exact size.symm
  | leave seeks | rest seeks =>
    obtain ⟨owing, asking, chosen⟩ := seeks_idle seeks
    refine quiet rfl present (by simp) rfl
      (tally.rest owing.symm asking.symm (Nat.le_refl _) (.inl ?_))
    rw [chosen]
    rfl
  | start | swept => exact quiet rfl present (by simp) rfl (tally.rest rfl rfl (Nat.le_refl _) (.inl rfl))
  | refuse broken result =>
    subst result
    exact quiet rfl present (by simp) rfl (tally.rest rfl rfl (Nat.le_refl _) (.inr broken))
  | sweep => exact quiet rfl present (by simp) rfl (tally.rest rfl rfl (Nat.le_refl _) (.inl rfl))
  | breakDown there =>
    cases present.symm.trans there
    refine quiet rfl (Table.get?_insert_self ..) (by simp) rfl
      (tally.rest rfl rfl ?_ (.inr (fits true rfl)))
    rw [JobQueue.size, queue.drain_perm.2]
    exact Nat.zero_le _
  | breakDownQueueless absent =>
    rw [present] at absent
    cases absent
  | ask sound =>
    subst sound
    have counted : [Event.called station .produce].count (.called station .produce) = 1 := by simp
    refine ⟨_, queue, rfl, present, ?_⟩
    rw [counted]
    exact tally.ask
  | @handOver job item =>
    cases fits false rfl
    have made : (Engine.handed station (job.slot, .made item)) = true := by
      simp [Engine.handed, handed job item rfl]
    refine ⟨_, queue, rfl, present, ?_⟩
    simp only [resolutions, List.filterMap_cons, Event.resolved?]
    split <;> simpa [made, List.filterMap_cons, Event.resolved?] using tally.handOver
  | make =>
    cases fits false rfl
    rcases fails (calls - 1) _ (by simp only [State.attempt, here]; exact .head _) with
      ⟨early, _⟩ | ⟨_, _, other⟩
    · exact quiet rfl present rfl rfl (tally.make early)
    · cases other
  | fault =>
    cases fits false rfl
    rcases fails (calls - 1) _ (by simp only [State.attempt, here]; exact .head _) with
      ⟨_, _, other⟩ | ⟨late, _⟩
    · cases other
    · exact quiet rfl present rfl rfl (tally.fault late)
  | crash =>
    rcases fails (calls - 1) _ (by simp only [State.attempt, here]; exact .head _) with
      ⟨_, _, other⟩ | ⟨_, _, other⟩ <;> cases other

theorem woken {runner : Runner} (tally : Tally n jobs asked made runner waiting) :
    Tally n jobs asked made (State.wakeRunner runner) waiting := by
  obtain ⟨station, phase, out, calls⟩ := runner
  cases phase <;> exact ⟨tally.asked, tally.made, tally.sound, tally.broken⟩

end Tally

-- The station's tally, where so many jobs were queued for it.
def Tallied (station : String) (n jobs : Nat) (events : List Event) (s : State) : Prop :=
  ∃ runner ∈ s.runners, runner.station = station ∧
    ∃ queue, s.board.queues.get? station = some queue ∧
      Tally n jobs (events.count (.called station .produce))
        ((resolutions events).countP (handed station)) runner queue.size

namespace Tallied

variable {jobs : Nat}

theorem opened (known : station ∈ stations) (n workers : Nat) :
    Tallied station n 0 [] (.opened stations workers) := by
  obtain ⟨queue, present⟩ := (Stock.opened stations workers).queue known
  obtain ⟨_, _, same⟩ := List.mem_map.mp (Table.mem_of_get? present)
  cases same
  exact ⟨_, List.mem_map_of_mem known, rfl, .empty, present, Tally.opened n station⟩

theorem still (tallied : Tallied station n jobs events s) (woken : Runner → Bool)
    (runners : t.runners =
      s.runners.map fun runner => if woken runner then State.wakeRunner runner else runner)
    (queues : t.board.queues = s.board.queues) (unasked : more.count (.called station .produce) = 0)
    (silent : resolutions more = []) : Tallied station n jobs (events ++ more) t := by
  obtain ⟨runner, member, place, queue, present, tally⟩ := tallied
  rw [Tallied, runners, queues, List.count_append, unasked, resolutions_append, silent,
    List.append_nil]
  refine ⟨_, List.mem_map_of_mem member, ?_, queue, present, ?_⟩
  · split
    · exact (wakeRunner_station runner).trans place
    · exact place
  · split
    · exact tally.woken
    · exact tally

theorem same (tallied : Tallied station n jobs events s) (runners : t.runners = s.runners)
    (queues : t.board.queues = s.board.queues) (unasked : more.count (.called station .produce) = 0)
    (silent : resolutions more = []) : Tallied station n jobs (events ++ more) t :=
  tallied.still (fun _ => false) (by simp [runners]) queues unasked silent

-- Only a worker that spreads its order queues jobs.
theorem posts_idle (here : s.workers[i]? = some ⟨old, report⟩)
    (move : WorkerMove s i report old action t more) (idle : ∀ order, old ≠ .claimed order) :
    s.posts action = [] := by
  have mine : s.posts (.worker i) = [] := by
    simp only [State.posts, here]
    split
    next found =>
      cases found
      exact absurd rfl (idle _)
    next => rfl
  rcases move.own with rfl | rfl | ⟨_, rfl⟩ <;> first | exact mine | rfl

theorem dispatch (tallied : Tallied station n jobs events s) (stock : Stock stations s)
    (here : s.workers[i]? = some ⟨.claimed order, report⟩)
    (runners : t.runners = (s.spread order).1.runners)
    (queues : t.board.queues = (s.spread order).1.board.queues)
    (unasked : more.count (.called station .produce) = 0) (silent : resolutions more = []) :
    Tallied station n (jobs + (s.posts (.worker i)).countP (·.2 = station)) (events ++ more) t := by
  have known := stock.held _ (List.mem_of_getElem? here) order rfl
  obtain ⟨woken, told⟩ := spread_runners s order
  obtain ⟨runner, member, place, queue, present, tally⟩ := tallied
  obtain ⟨longer, found, size⟩ := dispatchFrom_size (stock.setState order.id .dispatched) known
    order.id 0 present
  rw [Tallied, runners, told, queues, countP_posts here, List.count_append, unasked, resolutions_append,
    silent, List.append_nil]
  refine ⟨_, List.mem_map_of_mem member, ?_, longer, found, ?_⟩
  · split
    · exact (wakeRunner_station runner).trans place
    · exact place
  · rw [size]
    have more : Tally n (jobs + order.products.count station) (events.count (.called station .produce))
        ((resolutions events).countP (handed station)) runner
        (queue.size + order.products.count station) := by
      obtain ⟨asked, made, sound, broken⟩ := tally
      refine ⟨asked, made, fun works => ?_, fun fails => ?_⟩
      · have few := sound works
        omega
      · have few := broken fails
        omega
    split
    · exact more.woken
    · exact more

theorem worker (tallied : Tallied station n jobs events s) (stock : Stock stations s)
    (here : s.workers[i]? = some ⟨old, report⟩) (move : WorkerMove s i report old action t more) :
    Tallied station n (jobs + (s.posts action).countP (·.2 = station)) (events ++ more) t := by
  have silent := worker_resolves stock here move
  have idle := posts_idle here move
  have quiet : (∀ order, old ≠ .claimed order) → t.runners = s.runners →
      t.board.queues = s.board.queues → more.count (.called station .produce) = 0 →
      Tallied station n (jobs + (s.posts action).countP (·.2 = station)) (events ++ more) t := by
    intro other runners queues unasked
    rw [idle other]
    exact tallied.same runners queues unasked silent
  cases move with
  | @dispatch order =>
    have known := stock.held _ (List.mem_of_getElem? here) order rfl
    refine tallied.dispatch stock here rfl rfl ?_ silent
    rw [(spread_spread stock known).1]
    rfl
  | claim seeks | leave seeks | rest seeks =>
    exact quiet (by rintro order rfl; cases seeks) rfl rfl (by simp)
  | _ => exact quiet (by simp) rfl rfl (by simp)

-- The runner of another station.
theorem elsewhere {calls : Nat} (tallied : Tallied station n jobs events s) (steady : Steady stations s)
    (here : s.runners[i]? = some ⟨other, was, out, calls⟩)
    (move : RunnerMove s i other out calls was action t more) (differ : other ≠ station) :
    Tallied station n jobs (events ++ more) t := by
  obtain ⟨runner, member, place, queue, present, tally⟩ := tallied
  obtain ⟨now, runners, _⟩ := move.runners
  obtain ⟨k, there⟩ := List.getElem?_of_mem member
  have apart : i ≠ k := by
    rintro rfl
    cases here.symm.trans there
    exact differ place
  have unasked : more.count (.called station .produce) = 0 := by
    cases move with
    | handOver =>
      rw [List.count_cons]
      split <;> simp
    | _ => simp [differ]
  have unmade : (resolutions more).countP (handed station) = 0 := by
    cases move with
    | @handOver job item =>
      have maker := steady.jobs.handed _ (List.mem_of_getElem? here) job item rfl
      simp only [resolutions, List.filterMap_cons, Event.resolved?]
      split <;> simp [handed, maker, differ, List.filterMap_cons, Event.resolved?]
    | refuse _ result =>
      subst result
      rfl
    | _ => rfl
  rw [Tallied, List.count_append, unasked, resolutions_append, List.countP_append, unmade]
  refine ⟨runner, ?_, place, queue, (move.queue differ).trans present, tally⟩
  rw [runners]
  exact List.mem_of_getElem? ((List.getElem?_set_ne apart).trans there)

theorem runner {calls : Nat} (tallied : Tallied station n jobs events s) (steady : Steady stations s)
    (apart : stations.Nodup) (here : s.runners[i]? = some ⟨other, was, out, calls⟩)
    (fails : FailsFrom station n (s.attempt action))
    (move : RunnerMove s i other out calls was action t more) :
    Tallied station n jobs (events ++ more) t := by
  by_cases mine : other = station
  · subst mine
    have member := List.mem_of_getElem? here
    obtain ⟨runner, among, place, queue, present, tally⟩ := tallied
    cases steady.runner_unique apart among member place
    obtain ⟨now, later, runners, found, next⟩ := tally.runner present
      (steady.service.fits _ member) (fun job item => steady.jobs.handed _ member job item) here fails
      move
    obtain ⟨_, same, stays⟩ := move.runners
    rw [Tallied, List.count_append, resolutions_append, List.countP_append]
    refine ⟨now, ?_, ?_, later, found, next⟩
    · rw [runners]
      exact List.mem_of_getElem? (List.getElem?_set_self (List.getElem?_eq_some_iff.mp here).1)
    · have inside := (List.getElem?_eq_some_iff.mp here).1
      have twice := congrArg (·[i]?) (runners.symm.trans same)
      simp only [List.getElem?_set_self inside] at twice
      rw [Option.some.inj twice, stays]
  · exact tallied.elsewhere steady here move mine

theorem pager_unasked (move : PagerMove s call id use stage t more) :
    more.count (.called station .produce) = 0 := by
  rcases move.answers with rfl | ⟨_, rfl⟩ | ⟨_, rfl⟩ | rfl <;> rfl

theorem step (tallied : Tallied station n jobs events s) (steady : Steady stations s)
    (apart : stations.Nodup) (fails : FailsFrom station n (s.attempt action))
    (step : Transition s action t more) :
    Tallied station n (jobs + (s.posts action).countP (·.2 = station)) (events ++ more) t := by
  cases step with
  | worker here move => exact tallied.worker steady.stock here move
  | runner here move =>
    have idle : s.posts action = [] := by cases move <;> rfl
    rw [idle]
    exact tallied.runner steady apart here fails move
  | client move =>
    have idle : s.posts action = [] := by cases move <;> rfl
    have silent := client_resolves move
    rw [idle]
    cases move with
    | usePager _ move =>
      exact tallied.same move.frame.2.2.1 (by rw [move.frame.1]) (pager_unasked move) silent
    | _ => exact tallied.same rfl rfl (by simp) silent
  | shutdown _ move =>
    have silent := shutdown_resolves move
    cases move with
    | wakeStations | wakeReleased =>
      exact tallied.still (fun _ => true) (by simp [State.wakeAllStations, State.setCall]) rfl rfl silent
    | joinRunner _ ended =>
      rcases ended with ⟨_, rfl⟩ | ⟨_, rfl⟩ <;> exact tallied.same rfl rfl (by simp) silent
    | _ => exact tallied.same rfl rfl (by simp) silent

theorem run (apart : stations.Nodup) (known : station ∈ stations)
    (run : Run (.opened stations workers) actions events s)
    (fails : FailsFrom station n ((State.opened stations workers).attempts actions)) :
    Tallied station n (((State.opened stations workers).posted actions).countP (·.2 = station)) events s := by
  induction run with
  | start => exact opened known n workers
  | next before ran ih =>
    rw [attempts_next before] at fails
    rw [posted_next before, List.countP_append]
    have steady := Steady.opened apart before
    refine (ih ?_).step steady apart ?_ (transition_of_step ran)
    · exact fun call outcome member => fails call outcome (List.mem_append_left _ member)
    · exact fun call outcome member => fails call outcome (List.mem_append_right _ member)

end Tallied

end Kitchen.Engine
