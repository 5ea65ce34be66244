import Kitchen.Proofs.Tallies

-- The stations are released once every worker has ended. No job is left then, none comes any more, and
-- that is when runners leave.

namespace Kitchen.Engine

variable {s t : State} {action : Action} {actions later : List Action} {events more : List Event}
  {i j : Nat} {was now : Runner} {stations : List String} {workers : Nat} {station : String}
  {ref : JobRef} {queue : JobQueue JobRef}

theorem Transition.stays_released (released : s.board.released = true)
    (step : Transition s action t more) : t.board.released = true := by
  cases step with
  | worker _ move => exact move.unmanned.released.trans released
  | runner _ move => exact move.unmanned.released.trans released
  | client move =>
    cases move with
    | usePager _ move =>
      rw [move.frame.1]
      exact released
    | _ => exact released
  | shutdown _ move =>
    cases move with
    | release => rfl
    | _ => exact released

theorem released_stays (run : Run s actions events t) (released : s.board.released = true) :
    t.board.released = true := by
  induction run with
  | start => exact released
  | next _ ran ih => exact (transition_of_step ran).stays_released ih

-- A worker awaits every job that it queued before it can leave, so that nobody leaves a job behind.
theorem Closing.unsought (closing : Closing s) (released : s.board.released = true) :
    ¬ Sought s ref station := by
  rintro ⟨i, order, made, failed, awaits, _⟩
  rw [State.phases, List.getElem?_map] at awaits
  obtain ⟨worker, here, phase⟩ := Option.map_eq_some_iff.mp awaits
  have ended := closing.deserted released worker (List.mem_of_getElem? here)
  rw [phase] at ended
  cases ended

structure Cleared (s : State) : Prop where
  queues : ∀ station queue, s.board.queues.get? station = some queue → queue.jobs = []
  posts : ∀ action, s.posts action = []
  answered : ∀ ref signal, s.jobs.get? ref = some signal → signal.content ≠ .waiting

theorem Steady.cleared (steady : Steady stations s) (apart : stations.Nodup)
    (released : s.board.released = true) : Cleared s := by
  have ended := steady.closing.deserted released
  refine ⟨?_, ?_, ?_⟩
  · intro station queue present
    apply List.eq_nil_iff_forall_not_mem.mpr
    intro job queued
    exact steady.closing.unsought released (steady.jobs.queued station queue present job queued)
  · intro action
    unfold State.posts
    split
    · split
      next here =>
        cases ended _ (List.mem_of_getElem? here)
      next => rfl
    · rfl
  · intro ref signal found waiting
    obtain ⟨content, heard⟩ := signal
    cases waiting
    rcases steady.jobs.located steady.stock apart found with
      ⟨j, runner, here, job, has, _⟩ | ⟨station, queue, present, job, queued, _⟩
    · exact steady.closing.unsought released
        (steady.jobs.carried runner (List.mem_of_getElem? here) job has)
    · exact steady.closing.unsought released
        (steady.jobs.queued station queue present job queued)

theorem cleared_run (apart : stations.Nodup) (before : Run (.opened stations workers) actions events s)
    (run : Run s later more t) (released : s.board.released = true) :
    Cleared t ∧ s.posted later = [] := by
  have cleared : ∀ {later more t}, Run s later more t → Cleared t :=
    fun after => (Steady.opened apart (before.append after)).cleared apart (released_stays after released)
  refine ⟨cleared run, ?_⟩
  induction run with
  | start => rfl
  | @next _ _ _ _ _ action since _ ih => rw [posted_next since, ih, (cleared since).posts action]; rfl

inductive Leaving (s : State) (j : Nat) (was now : Runner) (action : Action) : Prop where
  | done (phase : now.phase = .finished) (own : action = .runner j)
      (released : s.board.released = true) (idle : s.idleQueue was.station)
  | killed (phase : now.phase = .dead) (own : action = .produced j .crashed)
      (job : Job JobRef) (asked : was.phase = .producing job)

-- A runner leaves its loop where the stations are released and nothing is on its queue; the only other
-- way is that its station kills it.
theorem leaving_of_step (step : Transition s action t more) (here : s.runners[j]? = some was)
    (there : t.runners[j]? = some now) (on : was.phase.ended = false) (off : now.phase.ended = true) :
    Leaving s j was now action := by
  have still : s.runners[j]? = some now → Leaving s j was now action := by
    intro before
    cases here.symm.trans before
    rw [on] at off
    cases off
  have same : t.runners = s.runners → Leaving s j was now action :=
    fun runners => still (runners ▸ there)
  have woken : ∀ f : Runner → Runner, t.runners = s.runners.map f →
      (∀ runner, (f runner).phase.ended = runner.phase.ended) → Leaving s j was now action := by
    intro f runners keeps
    rw [runners, List.getElem?_map, here] at there
    cases there
    rw [keeps, on] at off
    cases off
  have goesOn : ∀ {i : Nat} {next : Runner}, t.runners = s.runners.set i next →
      next.phase.ended = false → Leaving s j was now action := by
    intro i next runners busy
    rcases getElem?_set_cases (runners ▸ there) with ⟨_, rfl⟩ | ⟨_, before⟩
    · rw [busy] at off
      cases off
    · exact still before
  cases step with
  | worker _ move =>
    cases move with
    | @dispatch order =>
      obtain ⟨told, runners⟩ := spread_runners s order
      refine woken _ runners ?_
      intro runner
      split
      · exact wakeRunner_ended_eq runner
      · rfl
    | _ => exact same rfl
  | runner mine move =>
    cases move with
    | leave _ nothing released =>
      rcases getElem?_set_cases there with ⟨rfl, rfl⟩ | ⟨_, before⟩
      · cases mine.symm.trans here
        refine .done rfl rfl released ?_
        intro queue present
        rw [present] at nothing
        exact JobQueue.pop_none nothing
      · exact still before
    | crash =>
      rcases getElem?_set_cases there with ⟨rfl, rfl⟩ | ⟨_, before⟩
      · cases mine.symm.trans here
        exact .killed rfl rfl _ rfl
      · exact still before
    | _ => exact goesOn rfl rfl
  | client move =>
    cases move with
    | usePager _ move => exact same move.frame.2.2.1
    | _ => exact same rfl
  | shutdown _ move =>
    cases move with
    | wakeStations | wakeReleased => exact woken _ rfl wakeRunner_ended_eq
    | _ => exact same rfl

end Kitchen.Engine
