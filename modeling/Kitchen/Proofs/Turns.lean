import Kitchen.Proofs.Lines
import Kitchen.Proofs.Provenance

namespace Kitchen.Engine

variable {s t : State} {action : Action} {actions : List Action} {events : List Event}
  {i : Nat} {was : RunnerPhase} {stations : List String} {workers : Nat} {job : Job JobRef}

-- The job for which a runner is about to ask its station, or has asked it.
def RunnerPhase.due : RunnerPhase → List (Job JobRef)
  | .serving job | .producing job => [job]
  | _ => []

theorem due_jobs {phase : RunnerPhase} (due : job ∈ phase.due) : job ∈ phase.jobs := by
  cases phase <;> first | exact due | cases due

theorem wakeRunner_due (runner : Runner) :
    (State.wakeRunner runner).phase.due = runner.phase.due := by
  obtain ⟨station, phase, out, calls⟩ := runner
  cases phase <;> rfl

-- The station's runner has the job to make, or it is on the station's queue.
def State.due (s : State) (station : String) (job : Job JobRef) : Prop :=
  (∃ runner ∈ s.runners, runner.station = station ∧ job ∈ runner.phase.due) ∨
    s.stands station job

def Behind (first later : JobRef) : Prop := later.order = first.order → first.position < later.position

-- A station makes the products of one order in the order of their places, each by a later call.
structure Turns (made : List (JobRef × Item)) (s : State) : Prop where
  apart : made.Pairwise fun a b => a.2.maker = b.2.maker → a.2.call < b.2.call ∧ Behind a.1 b.1
  known : ∀ entry ∈ made, ∃ signal, s.jobs.get? entry.1 = some signal
  later : ∀ entry ∈ made, ∀ job, s.due entry.2.maker job → Behind entry.1 job.slot
  ahead : ∀ runner ∈ s.runners, ∀ job ∈ runner.phase.due, ∀ other, s.stands runner.station other →
    Behind job.slot other.slot

namespace Turns

variable {made : List (JobRef × Item)}

theorem opened (stations : List String) (workers : Nat) : Turns [] (.opened stations workers) := by
  refine ⟨.nil, by simp, by simp, ?_⟩
  intro runner member job due
  obtain ⟨station, _, rfl⟩ := List.mem_map.mp member
  cases due

-- Wherever a runner has a job to make that it had not before, the job was due.
theorem mono (turns : Turns made s) (steady : Steady stations s) (step : Transition s action t events)
    (due : ∀ runner ∈ t.runners, ∀ job ∈ runner.phase.due, s.due runner.station job)
    (ahead : ∀ runner ∈ t.runners, ∀ job ∈ runner.phase.due,
      (∃ before ∈ s.runners, before.station = runner.station ∧ job ∈ before.phase.due) ∨
      ∀ other, t.stands runner.station other → Behind job.slot other.slot) : Turns made t := by
  -- A new job on a queue is of an order that had none, so that nothing stands behind it.
  refine ⟨turns.apart, ?_, ?_, ?_⟩
  · intro entry entered
    obtain ⟨signal, found⟩ := turns.known entry entered
    exact kept_step steady.stock step _ signal found
  · rintro entry entered job (⟨runner, member, place, has⟩ | stands)
    · exact turns.later entry entered job (place ▸ due runner member job has)
    · rcases stood_of_step steady step stands with stood | new
      · exact turns.later entry entered job (.inr stood)
      · obtain ⟨signal, posted⟩ := turns.known entry entered
        exact fun named => absurd named (new _ signal posted)
  · intro runner member job has other stands
    rcases ahead runner member job has with ⟨before, was, place, had⟩ | first
    · rcases stood_of_step steady step stands with stood | new
      · exact turns.ahead before was job had other (place ▸ stood)
      · exact fun named => absurd named (new _ _ (steady.jobs.waiting_carried was (due_jobs had)))
    · exact first other stands

theorem keep (turns : Turns made s) (steady : Steady stations s) (step : Transition s action t events)
    (had : ∀ runner ∈ t.runners, ∀ job ∈ runner.phase.due,
      ∃ before ∈ s.runners, before.station = runner.station ∧ job ∈ before.phase.due) : Turns made t :=
  turns.mono steady step (fun runner member job due => .inl (had runner member job due))
    fun runner member job due => .inl (had runner member job due)

theorem map (turns : Turns made s) (steady : Steady stations s) (step : Transition s action t events)
    (f : Runner → Runner) (runners : t.runners = s.runners.map f)
    (same : ∀ runner, (f runner).station = runner.station ∧ (f runner).phase.due = runner.phase.due) :
    Turns made t := by
  refine turns.keep steady step ?_
  intro runner member job due
  rw [runners] at member
  obtain ⟨before, was, rfl⟩ := List.mem_map.mp member
  exact ⟨before, was, (same before).1.symm, (same before).2 ▸ due⟩

theorem same (turns : Turns made s) (steady : Steady stations s) (step : Transition s action t events)
    (runners : t.runners = s.runners) : Turns made t :=
  turns.map steady step id (by rw [runners, List.map_id]) fun _ => ⟨rfl, rfl⟩

-- A runner goes on with a job that it had to make, if with any.
theorem set {before now : Runner} (turns : Turns made s) (steady : Steady stations s)
    (step : Transition s action t events) (here : s.runners[i]? = some before)
    (runners : t.runners = s.runners.set i now) (place : now.station = before.station)
    (due : ∀ job ∈ now.phase.due, job ∈ before.phase.due) : Turns made t := by
  refine turns.keep steady step ?_
  intro runner member job has
  rw [runners] at member
  rcases List.mem_or_eq_of_mem_set member with old | rfl
  · exact ⟨runner, old, rfl, has⟩
  · exact ⟨before, List.mem_of_getElem? here, place.symm, due job has⟩

-- What a runner takes from its queue comes before all that it leaves there.
theorem take {calls : Nat} (turns : Turns made s) (lines : Lines s) (steady : Steady stations s)
    (step : Transition s action t events) (present : s.board.queues.get? station = some queue)
    (popped : queue.pop? = some (job, rest))
    (runners : t.runners = s.runners.set i ⟨station, .serving job, out, calls⟩)
    (queues : t.board.queues = s.board.queues.insert station rest) : Turns made t := by
  have perm := JobQueue.pop_perm popped
  refine turns.mono steady step ?_ ?_
  · intro runner member other has
    rw [runners] at member
    rcases List.mem_or_eq_of_mem_set member with old | rfl
    · exact .inl ⟨runner, old, rfl, has⟩
    · cases List.mem_singleton.mp has
      exact .inr ⟨queue, present, perm.mem_iff.mpr (.head _)⟩
  · intro runner member taken has
    rw [runners] at member
    rcases List.mem_or_eq_of_mem_set member with old | rfl
    · exact .inl ⟨runner, old, rfl, has⟩
    · cases List.mem_singleton.mp has
      refine .inr ?_
      rintro other ⟨line, found, among⟩ named
      rw [queues, Table.get?_insert_self] at found
      cases found
      rcases lines.taken steady present popped other among with older | ⟨_, before⟩
      · rw [named] at older
        exact absurd older (Nat.lt_irrefl _)
      · exact before

-- A product that was just made is of a later call than those before it, and for a later place.
theorem make {calls : Nat} (turns : Turns made s) (numbered : Numbered made s)
    (steady : Steady stations s) (apart : stations.Nodup)
    (here : s.runners[i]? = some ⟨station, .producing job, out, calls⟩) (product : Product)
    (still : Turns made t) (kept : Jobs.Kept s t)
    (runners : t.runners = s.runners.set i
      ⟨station, .holding job ⟨station, calls - 1, product⟩, out, calls⟩)
    (queues : t.board.queues = s.board.queues) :
    Turns (made ++ [(job.slot, ⟨station, calls - 1, product⟩)]) t := by
  have busy := List.mem_of_getElem? here
  refine ⟨?_, ?_, ?_, still.ahead⟩
  · refine List.pairwise_append.mpr ⟨turns.apart, List.pairwise_singleton .., ?_⟩
    intro entry entered new mine maker
    cases List.mem_singleton.mp mine
    refine ⟨numbered.settled entry entered _ busy maker.symm, ?_⟩
    exact turns.later entry entered job (.inl ⟨_, busy, maker.symm, .head _⟩)
  · intro entry entered
    rcases List.mem_append.mp entered with earlier | mine
    · exact still.known entry earlier
    · cases List.mem_singleton.mp mine
      exact kept _ _ (steady.jobs.waiting_carried busy (.head _))
  · intro entry entered other due
    rcases List.mem_append.mp entered with earlier | mine
    · exact still.later entry earlier other due
    · cases List.mem_singleton.mp mine
      rcases due with ⟨runner, among, place, has⟩ | ⟨queue, found, member⟩
      · -- Its own runner holds the product now, and no other works for the station.
        obtain ⟨k, there⟩ := List.getElem?_of_mem among
        rcases getElem?_set_cases (runners ▸ there) with ⟨_, rfl⟩ | ⟨differ, before⟩
        · cases has
        · exact absurd (steady.stock.runner_inj apart before here place) differ
      · rw [queues] at found
        exact turns.ahead _ busy job (.head _) other ⟨queue, found, member⟩

theorem runner {calls : Nat} (turns : Turns made s) (numbered : Numbered made s) (lines : Lines s)
    (steady : Steady stations s) (apart : stations.Nodup) (step : Transition s action t events)
    (here : s.runners[i]? = some ⟨station, was, out, calls⟩)
    (move : RunnerMove s i station out calls was action t events) :
    Turns (made ++ s.makes action) t := by
  have none : s.makes action = [] → Turns made t → Turns (made ++ s.makes action) t := by
    intro nothing still
    rw [nothing, List.append_nil]
    exact still
  have rest : ∀ now : Runner, t.runners = s.runners.set i now → now.station = station →
      (∀ job ∈ now.phase.due, job ∈ was.due) → Turns made t :=
    fun now runners place due => turns.set steady step here runners place due
  cases move with
  | take _ present popped => exact none rfl (turns.take lines steady step present popped rfl rfl)
  | ask => exact none rfl (rest _ rfl rfl fun _ => id)
  | @make job product =>
    have still := rest _ rfl rfl (by simp [RunnerPhase.due])
    simp only [State.makes, here]
    exact turns.make numbered steady apart here product still (kept_step steady.stock step) rfl rfl
  | _ => exact none rfl (rest _ rfl rfl (by simp [RunnerPhase.due]))

theorem step (turns : Turns made s) (numbered : Numbered made s) (lines : Lines s)
    (steady : Steady stations s) (apart : stations.Nodup) (step : Transition s action t events) :
    Turns (made ++ s.makes action) t := by
  cases step with
  | worker here move =>
    have step : Transition s action t events := .worker here move
    rw [(worker_idle move).1, List.append_nil]
    cases move with
    | @dispatch order =>
      obtain ⟨woken, runners⟩ := spread_runners s order
      refine turns.map steady step _ runners ?_
      intro runner
      split
      · exact ⟨wakeRunner_station runner, wakeRunner_due runner⟩
      · exact ⟨rfl, rfl⟩
    | _ => exact turns.same steady step rfl
  | runner here move => exact turns.runner numbered lines steady apart (.runner here move) here move
  | client move =>
    have step : Transition s action t events := .client move
    rw [(client_idle move).1, List.append_nil]
    cases move with
    | usePager _ move => exact turns.same steady step move.frame.2.2.1
    | _ => exact turns.same steady step rfl
  | shutdown here move =>
    have step : Transition s _ t events := .shutdown here move
    simp only [State.makes, List.append_nil]
    cases move with
    | wakeStations | wakeReleased =>
      exact turns.map steady step State.wakeRunner rfl
        fun runner => ⟨wakeRunner_station runner, wakeRunner_due runner⟩
    | _ => exact turns.same steady step rfl

theorem run (apart : stations.Nodup) (run : Run (.opened stations workers) actions events t) :
    Turns ((State.opened stations workers).production actions) t := by
  induction run with
  | start => exact opened stations workers
  | next before ran ih =>
    rw [production_next before]
    refine ih.step ?_ (Lines.run apart before) (Steady.opened apart before) apart
      (transition_of_step ran)
    exact Numbered.run (Stock.opened stations workers) apart (Numbered.opened stations workers) before

end Turns

end Kitchen.Engine
