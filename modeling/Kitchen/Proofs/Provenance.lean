import Kitchen.Proofs.Outcomes
import Kitchen.Proofs.Products
import Mathlib.Data.List.Nodup

-- Where a product comes from: no station makes the same product twice, and each one is made for a
-- place of an accepted order that wants what the station makes.

namespace Kitchen.Engine

variable {s t : State} {action : Action} {actions : List Action} {events more : List Event}
  {call c : CallId} {id : OrderId} {i : Nat} {report : Report} {order : Order}
  {phase old : WorkerPhase} {was : RunnerPhase} {stations : List String}
  {made : List (JobRef × Item)}

def Runner.settled (runner : Runner) : Nat :=
  match runner.phase with
  | .producing _ => runner.calls - 1
  | _ => runner.calls

-- Every product bears the number of a call that has come back, and no two bear the same.
structure Numbered (made : List (JobRef × Item)) (s : State) : Prop where
  apart : (made.map (·.2)).Nodup
  settled : ∀ entry ∈ made, ∀ runner ∈ s.runners, runner.station = entry.2.maker →
    entry.2.call < runner.settled
  asked : ∀ runner ∈ s.runners, ∀ job, runner.phase = .producing job → 0 < runner.calls

namespace Numbered

theorem opened (stations : List String) (workers : Nat) :
    Numbered [] (.opened stations workers) := by
  refine ⟨List.nodup_nil, by simp, ?_⟩
  intro runner member job busy
  obtain ⟨station, _, rfl⟩ := List.mem_map.mp member
  cases busy

theorem map (numbered : Numbered made s) (f : Runner → Runner)
    (runners : t.runners = s.runners.map f)
    (same : ∀ runner, (f runner).station = runner.station ∧ (f runner).settled = runner.settled ∧
      (f runner).calls = runner.calls)
    (busy : ∀ runner job, (f runner).phase = .producing job → runner.phase = .producing job) :
    Numbered made t := by
  refine ⟨numbered.apart, ?_, ?_⟩
  · intro entry entered runner member maker
    rw [runners] at member
    obtain ⟨before, had, rfl⟩ := List.mem_map.mp member
    rw [(same before).1] at maker
    rw [(same before).2.1]
    exact numbered.settled entry entered before had maker
  · intro runner member job works
    rw [runners] at member
    obtain ⟨before, had, rfl⟩ := List.mem_map.mp member
    rw [(same before).2.2]
    exact numbered.asked before had job (busy before job works)

theorem same (numbered : Numbered made s) (runners : t.runners = s.runners) : Numbered made t :=
  numbered.map id (by rw [runners, List.map_id]) (fun _ => ⟨rfl, rfl, rfl⟩) (fun _ _ => id)

theorem wake (numbered : Numbered made s) (woken : Runner → Bool) (runners : t.runners =
    s.runners.map fun runner => if woken runner then State.wakeRunner runner else runner) :
    Numbered made t := by
  refine numbered.map _ runners ?_ ?_
  · intro runner
    split
    · obtain ⟨station, phase, out, calls⟩ := runner
      cases phase <;> exact ⟨rfl, rfl, rfl⟩
    · exact ⟨rfl, rfl, rfl⟩
  · intro runner job busy
    split at busy
    · obtain ⟨station, phase, out, calls⟩ := runner
      cases phase <;> first | exact busy | cases busy
    · exact busy

-- A runner goes on; its station has answered no fewer calls than before.
theorem set {before now : Runner} (numbered : Numbered made s) (here : s.runners[i]? = some before)
    (runners : t.runners = s.runners.set i now) (place : now.station = before.station)
    (later : before.settled ≤ now.settled)
    (asked : ∀ job, now.phase = .producing job → 0 < now.calls) : Numbered made t := by
  refine ⟨numbered.apart, ?_, ?_⟩
  · intro entry entered runner member maker
    rw [runners] at member
    rcases List.mem_or_eq_of_mem_set member with old | rfl
    · exact numbered.settled entry entered runner old maker
    · rw [place] at maker
      have bound := numbered.settled entry entered before (List.mem_of_getElem? here) maker
      omega
  · intro runner member
    rw [runners] at member
    rcases List.mem_or_eq_of_mem_set member with old | rfl
    · exact numbered.asked runner old
    · exact asked

-- The product that a station has just made bears a number that no earlier one bears.
theorem make {calls : Nat} (numbered : Numbered made s)
    (distinct : (s.runners.map (·.station)).Nodup)
    (here : s.runners[i]? = some ⟨station, .producing job, out, calls⟩) (product : Product)
    (runners : t.runners = s.runners.set i
      ⟨station, .holding job ⟨station, calls - 1, product⟩, out, calls⟩) :
    Numbered (made ++ [(job.slot, ⟨station, calls - 1, product⟩)]) t := by
  have member := List.mem_of_getElem? here
  have begun : 0 < calls := numbered.asked _ member job rfl
  have moved : Numbered made t := numbered.set here runners rfl (Nat.sub_le ..) (by simp)
  refine ⟨?_, ?_, moved.asked⟩
  · apply nodup_map_concat numbered.apart
    intro entry entered same
    have bound := numbered.settled entry entered _ member (by rw [same])
    rw [same] at bound
    exact Nat.lt_irrefl _ bound
  · intro entry entered runner among maker
    rcases List.mem_append.mp entered with earlier | new
    · exact moved.settled entry earlier runner among maker
    · cases List.mem_singleton.mp new
      -- No other runner works for the same station.
      obtain ⟨j, there⟩ := List.getElem?_of_mem among
      rcases getElem?_set_cases (runners ▸ there) with ⟨_, rfl⟩ | ⟨differ, before⟩
      · simp only [Runner.settled]
        omega
      · have equal := (List.getElem?_inj (j := j) (by simpa using (List.getElem?_eq_some_iff.mp here).1)
          distinct).mp (by simp [here, before, maker])
        exact absurd equal.symm differ

theorem runner {calls : Nat} (numbered : Numbered made s)
    (distinct : (s.runners.map (·.station)).Nodup)
    (here : s.runners[i]? = some ⟨station, was, out, calls⟩)
    (move : RunnerMove s i station out calls was action t events) :
    Numbered (made ++ s.makes action) t := by
  have quiet : ∀ {u : State}, s.makes action = [] → Numbered made u →
      Numbered (made ++ s.makes action) u := by
    intro u nothing numbered
    rw [nothing, List.append_nil]
    exact numbered
  cases move with
  | make =>
    simp only [State.makes, here]
    exact numbered.make distinct here _ rfl
  | take seeks | leave seeks | rest seeks =>
    refine quiet rfl (numbered.set here rfl rfl ?_ (by simp))
    cases was <;> first | exact Nat.le_refl _ | cases seeks
  | ask => exact quiet rfl (numbered.set here rfl rfl (Nat.le_refl _) fun _ _ => Nat.succ_pos _)
  | fault | crash => exact quiet rfl (numbered.set here rfl rfl (Nat.sub_le ..) (by simp))
  | _ => exact quiet rfl (numbered.set here rfl rfl (Nat.le_refl _) (by simp))

theorem step (numbered : Numbered made s) (distinct : (s.runners.map (·.station)).Nodup)
    (step : Transition s action t events) : Numbered (made ++ s.makes action) t := by
  cases step with
  | worker _ move =>
    rw [(worker_idle move).1, List.append_nil]
    cases move with
    | @dispatch order =>
      obtain ⟨woken, runners⟩ := spread_runners s order
      exact numbered.wake woken runners
    | _ => exact numbered.same rfl
  | runner here move => exact numbered.runner distinct here move
  | client move =>
    rw [(client_idle move).1, List.append_nil]
    cases move with
    | usePager _ move => exact numbered.same move.frame.2.2.1
    | _ => exact numbered.same rfl
  | shutdown _ move =>
    simp only [State.makes, List.append_nil]
    cases move with
    | wakeStations | wakeReleased =>
      exact numbered.wake (fun _ => true) (by simp [State.wakeAllStations, State.setCall])
    | _ => exact numbered.same rfl

theorem run (stock : Stock stations s) (distinct : stations.Nodup) (numbered : Numbered [] s)
    (run : Run s actions events t) : Numbered (s.production actions) t := by
  induction run with
  | start => exact numbered
  | next before ran ih =>
    rw [production_next before]
    exact ih.step (by rw [(stock.run before).staff]; exact distinct) (transition_of_step ran)

end Numbered

-- Every order in the kitchen was placed, and the orders placed bear the numbers up to the next.
structure Placed (events : List Event) (s : State) : Prop where
  waiting : ∀ order ∈ s.board.unassigned, order ∈ placed events
  had : ∀ (i : Nat) (phase : WorkerPhase) (order : Order), s.phases[i]? = some phase →
    phase.order? = some order → order ∈ placed events
  numbers : (placed events).map (·.id) = List.range s.board.nextOrder

namespace Placed

theorem opened (stations : List String) (workers : Nat) : Placed [] (.opened stations workers) := by
  refine ⟨by simp [State.opened], ?_, rfl⟩
  intro i phase order found has
  cases State.phases_opened found
  cases has

theorem mono (all : Placed events s)
    (waiting : ∀ order ∈ t.board.unassigned, order ∈ s.board.unassigned)
    (had : ∀ (i : Nat) (phase : WorkerPhase) (order : Order), t.phases[i]? = some phase →
      phase.order? = some order → order ∈ s.board.unassigned ∨
        ∃ before, s.phases[i]? = some before ∧ before.order? = some order)
    (next : t.board.nextOrder = s.board.nextOrder) (none : placed more = []) :
    Placed (events ++ more) t := by
  have same : placed (events ++ more) = placed events := by
    rw [placed_append, none, List.append_nil]
  refine ⟨?_, ?_, ?_⟩
  · intro order waits
    rw [same]
    exact all.waiting order (waiting order waits)
  · intro i phase order found has
    rw [same]
    rcases had i phase order found has with waits | ⟨before, there, had⟩
    · exact all.waiting order waits
    · exact all.had i before order there had
  · rw [same, next]
    exact all.numbers

theorem set (all : Placed events s) (here : s.phases[i]? = some old)
    (crew : t.phases = s.phases.set i phase)
    (waiting : ∀ order ∈ t.board.unassigned, order ∈ s.board.unassigned)
    (keeps : ∀ order, phase.order? = some order →
      order ∈ s.board.unassigned ∨ old.order? = some order)
    (next : t.board.nextOrder = s.board.nextOrder) (none : placed more = []) :
    Placed (events ++ more) t := by
  refine all.mono waiting ?_ next none
  intro j q order found has
  rcases getElem?_set_cases (crew ▸ found) with ⟨rfl, rfl⟩ | ⟨_, before⟩
  · rcases keeps order has with waits | had
    · exact .inl waits
    · exact .inr ⟨old, here, had⟩
  · exact .inr ⟨q, before, has⟩

theorem map (all : Placed events s) (f : WorkerPhase → WorkerPhase)
    (crew : t.phases = s.phases.map f) (same : ∀ phase, (f phase).order? = phase.order?)
    (waiting : t.board.unassigned = s.board.unassigned)
    (next : t.board.nextOrder = s.board.nextOrder) (none : placed more = []) :
    Placed (events ++ more) t := by
  refine all.mono (waiting ▸ fun _ => id) ?_ next none
  intro j q order found has
  rw [crew, List.getElem?_map, Option.map_eq_some_iff] at found
  obtain ⟨p, was, rfl⟩ := found
  exact .inr ⟨p, was, same p ▸ has⟩

theorem same (all : Placed events s) (workers : t.workers = s.workers)
    (waiting : t.board.unassigned = s.board.unassigned)
    (next : t.board.nextOrder = s.board.nextOrder) (none : placed more = []) :
    Placed (events ++ more) t :=
  all.map id (by rw [State.phases, State.phases, workers, List.map_id]) (fun _ => rfl) waiting next none

theorem worker (all : Placed events s) (here : s.workers[i]? = some ⟨old, report⟩)
    (move : WorkerMove s i report old action t more) : Placed (events ++ more) t := by
  have place := State.phases_of here
  have silent := placed_worker move
  have next := move.unmanned.next
  cases move with
  | claim _ first =>
    refine all.set place (State.phases_setWorker ..) ?_ ?_ next silent
    · intro order waits
      rw [first]
      exact List.mem_cons_of_mem _ waits
    · intro order mine
      cases mine
      rw [first]
      exact .inl (List.mem_cons_self ..)
  | @dispatch order =>
    refine all.set place (State.phases_spread ..) ?_ (fun _ => .inr) next silent
    intro other waits
    change other ∈ (s.spread order).1.board.unassigned at waits
    rw [spread_unassigned] at waits
    exact waits
  | leave | rest | start | tell | deliver | crash =>
    exact all.set place (State.phases_setWorker ..) (fun _ => id) (by simp [WorkerPhase.order?]) next silent
  | _ => exact all.set place (State.phases_setWorker ..) (fun _ => id) (fun _ => .inr) next silent

theorem accept (all : Placed events s) (products : List String) :
    Placed (events ++ [.placed products s.board.nextOrder,
      .noticed (.orderAccepted s.board.nextOrder)]) (s.accept products) := by
  have new : placed (events ++ [.placed products s.board.nextOrder,
      .noticed (.orderAccepted s.board.nextOrder)]) =
        placed events ++ [⟨s.board.nextOrder, products⟩] := placed_append ..
  refine ⟨?_, ?_, ?_⟩
  · intro order waits
    rw [new]
    rcases List.mem_append.mp waits with before | mine
    · exact List.mem_append_left _ (all.waiting order before)
    · exact List.mem_append_right _ mine
  · intro i phase order found has
    rw [new]
    exact List.mem_append_left _ (all.had i phase order found has)
  · rw [new, List.map_append, all.numbers]
    exact List.range_succ.symm

theorem client (all : Placed events s) (move : ClientMove s action t more) :
    Placed (events ++ more) t := by
  cases move with
  | place => exact all.accept _
  | @placeWaking _ _ _ _ _ sleeper =>
    rw [← List.append_nil (events ++ _)]
    exact (all.accept _).set (State.phases_of sleeper) (State.phases_setWorker ..) (fun _ => id)
      (by simp [WorkerPhase.order?]) rfl rfl
  | @collectReady _ id =>
    exact all.map (·.wakePickup id) (State.phases_notifyPickup _ id)
      (WorkerPhase.wakePickup_order id) rfl rfl rfl
  | usePager _ move =>
    obtain ⟨board, workers, _⟩ := move.frame
    exact all.same workers (by rw [board]) (by rw [board]) (placed_pager move)
  | _ => exact all.same rfl rfl rfl rfl

theorem step (all : Placed events s) (step : Transition s action t more) :
    Placed (events ++ more) t := by
  cases step with
  | worker here move => exact all.worker here move
  | runner _ move =>
    obtain ⟨workers, waiting, _⟩ := move.workers
    exact all.same workers waiting move.unmanned.next (placed_runner move)
  | client move => exact all.client move
  | shutdown _ move =>
    have silent := placed_shutdown move
    cases move with
    | wakeWorkers =>
      exact all.map (·.wake) (State.phases_wakeAllWorkers s) WorkerPhase.wake_order rfl rfl rfl
    | _ => exact all.same rfl rfl rfl silent

theorem run (run : Run (.opened stations workers) actions events t) : Placed events t := by
  induction run with
  | start => exact opened stations workers
  | next _ ran ih => exact ih.step (transition_of_step ran)

theorem unique (all : Placed events s) {a b : Order} (here : a ∈ placed events)
    (there : b ∈ placed events) (same : a.id = b.id) : a = b := by
  have apart : ((placed events).map (·.id)).Nodup := by
    rw [all.numbers]
    exact List.nodup_range
  exact List.inj_on_of_nodup_map apart here there same

theorem mem_placed : (⟨id, products⟩ : Order) ∈ placed events ↔ .placed products id ∈ events := by
  rw [placed, List.mem_filterMap]
  constructor
  · rintro ⟨event, member, mine⟩
    cases event with
    | placed =>
      cases mine
      exact member
    | _ => cases mine
  · exact fun member => ⟨_, member, rfl⟩

-- A number was given out exactly if somebody placed the order that bears it.
theorem known_iff (all : Placed events s) :
    id < s.board.nextOrder ↔ ∃ products, .placed products id ∈ events := by
  rw [← List.mem_range, ← all.numbers, List.mem_map]
  constructor
  · rintro ⟨⟨id, products⟩, member, rfl⟩
    exact ⟨products, mem_placed.mp member⟩
  · rintro ⟨products, order⟩
    exact ⟨⟨id, products⟩, mem_placed.mpr order, rfl⟩

end Placed

-- Somebody ordered the product, at the place for which it was made.
def Wanted (events : List Event) (ref : JobRef) (station : String) : Prop :=
  ∃ order ∈ placed events, order.id = ref.order ∧ order.products[ref.position]? = some station

theorem Wanted.mono (wanted : Wanted events ref station) (more : List Event) :
    Wanted (events ++ more) ref station := by
  obtain ⟨order, there, named, wants⟩ := wanted
  refine ⟨order, ?_, named, wants⟩
  rw [placed_append]
  exact List.mem_append_left _ there

theorem Wanted.unique (all : Placed events s) (one : Wanted events ref station)
    (two : Wanted events ref maker) : station = maker := by
  obtain ⟨a, here, named, wants⟩ := one
  obtain ⟨b, there, called, asks⟩ := two
  obtain rfl := all.unique here there (named.trans called.symm)
  exact Option.some.inj (wants.symm.trans asks)

theorem Sought.wanted (all : Placed events s) (sought : Sought s ref station) :
    Wanted events ref station := by
  obtain ⟨i, order, tray, failed, there, named, _, wants⟩ := sought
  exact ⟨order, all.had i _ order there rfl, named, wants⟩

theorem wanted_of_makes (all : Placed events s) (jobs : Jobs s)
    (makes : (ref, item) ∈ s.makes action) : Wanted events ref item.maker := by
  unfold State.makes at makes
  split at makes
  · split at makes
    next here =>
      cases List.mem_singleton.mp makes
      exact (jobs.carried _ (List.mem_of_getElem? here) _ (List.mem_singleton_self _)).wanted all
    next => cases makes
  · cases makes

theorem wanted_of_made (run : Run (.opened stations workers) actions events s)
    (entered : (ref, item) ∈ (State.opened stations workers).production actions) :
    Wanted events ref item.maker := by
  induction run with
  | start => cases entered
  | @next _ _ more middle _ action before ran ih =>
    rw [production_next before] at entered
    rcases List.mem_append.mp entered with earlier | new
    · exact (ih earlier).mono more
    · have jobs := (Jobs.opened stations workers).run (Stock.opened stations workers)
        (Orders.opened stations workers) before
      exact (wanted_of_makes (Placed.run before) jobs new).mono more

end Kitchen.Engine
