import Kitchen.Proofs.Gathering
import Kitchen.Proofs.Pagers
import Kitchen.Proofs.Verdicts

-- The buzz and what the client collects agree. A worker tells the buzzer in the step in which the order
-- can first be collected, and tells it what the order's jobs gave and what the result will be; and a
-- pager that one call uses at a time tells the client just that, from its first answer on.

namespace Kitchen.Engine

variable {s t : State} {action : Action} {actions : List Action} {events more : List Event}
  {id : OrderId} {i : Nat} {report : Report} {order : Order} {made : Tray} {failed : Nat}
  {answer : Readiness} {old : WorkerPhase} {stations : List String} {workers : Nat}
  {spoken now : JobRef → List (Option JobResult)} {told : List (OrderId × Readiness)}

-- What the jobs of an order gave for which the buzzer was told so.
def Borne (spoken : JobRef → List (Option JobResult)) (order : Order) : Readiness → Prop
  | .ready => ∀ position, position < order.products.length →
    ∃ item, spoken ⟨order.id, position⟩ = [some (.made item)]
  | .malfunction => ∃ position, position < order.products.length ∧
    (spoken ⟨order.id, position⟩ = [none] ∨
      ∃ error, spoken ⟨order.id, position⟩ = [some (.broke error)])

theorem Borne.mono (borne : Borne spoken order answer)
    (stays : ∀ ref, spoken ref ≠ [] → now ref = spoken ref) : Borne now order answer := by
  cases answer with
  | ready =>
    intro position inside
    obtain ⟨item, gave⟩ := borne position inside
    exact ⟨item, (stays _ (by simp [gave])).trans gave⟩
  | malfunction =>
    obtain ⟨position, inside, gave⟩ := borne
    have same : now ⟨order.id, position⟩ = spoken ⟨order.id, position⟩ := by
      refine stays _ ?_
      rcases gave with none | ⟨error, broke⟩
      · simp [none]
      · simp [broke]
    exact ⟨position, inside, same.symm ▸ gave⟩

theorem Gathers.borne (gathers : Gathers spoken (.awaiting order made failed))
    (short : ∀ ref, (spoken ref).length ≤ 1) (whole : made.length + failed = order.products.length) :
    Borne spoken order (if failed = 0 then .ready else .malfunction) := by
  obtain ⟨tray, heard⟩ := gathers.told order _ rfl
  replace tray : made = gathered spoken order (made.length + failed) := tray
  rw [whole] at tray heard
  split
  next nothing =>
    intro position inside
    have full : (gathered spoken order order.products.length).length = order.products.length := by
      rw [← tray]
      omega
    obtain ⟨product, item, shared, _⟩ := gathered_full full inside
    exact ⟨item, (share_eq_some.mp shared).2⟩
  next spoiled =>
    have few : (gathered spoken order order.products.length).length < order.products.length := by
      rw [← tray]
      omega
    obtain ⟨position, inside, nothing⟩ := gathered_short few
    refine ⟨position, inside, ?_⟩
    have wants := List.getElem?_eq_getElem inside
    have one : (spoken ⟨order.id, position⟩).length = 1 :=
      Nat.le_antisymm (short _) (List.length_pos_iff.mpr (heard position inside))
    obtain ⟨word, words⟩ := List.length_eq_one_iff.mp one
    match word with
    | none => exact .inl words
    | some (.broke error) => exact .inr ⟨error, words⟩
    | some (.made item) =>
      rw [share_eq_some.mpr ⟨wants, words⟩] at nothing
      cases nothing

theorem resolves_done (here : s.workers[i]? = some ⟨.awaiting order made failed, report⟩)
    (done : order.products[made.length + failed]? = none) :
    s.resolves (.worker i) = [(order.id, if failed = 0 then .ready else .malfunction)] := by
  simp only [State.resolves, here, done]

theorem resolves_of (resolved : (id, answer) ∈ s.resolves action) :
    ∃ (i : Nat) (order : Order) (made : Tray) (failed : Nat) (report : Report), action = .worker i ∧
      s.workers[i]? = some ⟨.awaiting order made failed, report⟩ ∧ order.id = id ∧
      order.products[made.length + failed]? = none ∧
      answer = if failed = 0 then .ready else .malfunction := by
  unfold State.resolves at resolved
  split at resolved
  · split at resolved
    next order made failed report here =>
      split at resolved
      · cases resolved
      next done =>
        cases List.mem_singleton.mp resolved
        exact ⟨_, order, made, failed, report, rfl, here, rfl, done, rfl⟩
    next => cases resolved
  · cases resolved

-- What a buzzer was told is what the jobs of its order gave.
theorem borne_run (apart : stations.Nodup) (run : Run (.opened stations workers) actions events s)
    (resolved : (id, answer) ∈ along State.resolves (.opened stations workers) actions) :
    ∃ order ∈ placed events, order.id = id ∧
      Borne (said events ((State.opened stations workers).abandoned actions)) order answer := by
  induction run with
  | start => cases resolved
  | @next earlier events more middle last action before ran ih =>
    have stays : ∀ ref, said events ((State.opened stations workers).abandoned earlier) ref ≠ [] →
        said (events ++ more) ((State.opened stations workers).abandoned (earlier ++ [action])) ref =
          said events ((State.opened stations workers).abandoned earlier) ref := by
      have after := Said.run (.next before ran)
      rw [abandoned_next before] at after ⊢
      exact fun ref => after.stays
    rw [along_next _ before] at resolved
    rw [placed_append]
    rcases List.mem_append.mp resolved with old | new
    · obtain ⟨order, accepted, named, borne⟩ := ih old
      exact ⟨order, List.mem_append_left _ accepted, named, borne.mono stays⟩
    · obtain ⟨i, order, made, failed, report, rfl, here, rfl, done, rfl⟩ := resolves_of new
      have place := State.phases_of here
      have accepted := (Placed.run before).had i _ order place rfl
      have whole : made.length + failed = order.products.length :=
        Nat.le_antisymm ((Steady.opened apart before).jobs.posted i order made failed place).1
          (List.getElem?_eq_none_iff.mp done)
      refine ⟨order, List.mem_append_left _ accepted, rfl, ?_⟩
      exact (((Gathering.run apart before).gathers i _ place).borne (Said.run before).once whole).mono stays

def Fate.readiness : Fate → Readiness
  | .collected => .ready
  | .ended ending => ending.readiness

-- What the client of an order is told whose buzzer said so.
def Granted (id : OrderId) : Readiness → Outcome → Prop
  | .ready, outcome => (∃ items, outcome = .meal items) ∨ outcome = .spoiled (.orderExpired id)
  | .malfunction, outcome => outcome = .spoiled (.fulfillmentFailure id)

theorem Fate.fits.granted {fate : Fate} {outcome : Outcome} (fits : fate.fits id outcome) :
    Granted id fate.readiness outcome := by
  cases fate with
  | collected =>
    cases outcome with
    | meal items => exact .inl ⟨items, rfl⟩
    | spoiled => cases fits
  | ended ending =>
    cases outcome with
    | meal => cases fits
    | spoiled error =>
      cases fits
      cases ending with
      | expired => exact .inr rfl
      | failed => rfl

-- The buzzer of an order was told before the order was written down, or is told in the same step.
structure Buzzing (told : List (OrderId × Readiness)) (events : List Event) (s : State) : Prop where
  held : ∀ (i : Nat) (order : Order) (made : Tray) (notified : Bool),
    s.phases[i]? = some (.holding order made notified) → (order.id, .ready) ∈ told
  booked : ∀ entry ∈ book events, (entry.id, entry.fate.readiness) ∈ told

namespace Buzzing

theorem opened (stations : List String) (workers : Nat) : Buzzing [] [] (.opened stations workers) := by
  refine ⟨?_, by simp [book]⟩
  intro i order made notified found
  cases State.phases_opened found

theorem map (all : Buzzing told events s) (f : WorkerPhase → WorkerPhase)
    (crew : t.phases = s.phases.map f)
    (holds : ∀ phase order made notified, f phase = .holding order made notified →
      ∃ before, phase = .holding order made before) (silent : book more = []) :
    Buzzing told (events ++ more) t := by
  refine ⟨?_, ?_⟩
  · intro i order made notified found
    rw [crew, List.getElem?_map, Option.map_eq_some_iff] at found
    obtain ⟨phase, there, same⟩ := found
    obtain ⟨before, rfl⟩ := holds phase order made notified same
    exact all.held i order made before there
  · rw [book_append, silent, List.append_nil]
    exact all.booked

theorem same (all : Buzzing told events s) (crew : t.phases = s.phases) (silent : book more = []) :
    Buzzing told (events ++ more) t :=
  all.map id (by rw [crew, List.map_id]) (fun _ _ _ notified equal => ⟨notified, equal⟩) silent

theorem set {phase : WorkerPhase} {new : List (OrderId × Readiness)} (all : Buzzing told events s)
    (crew : t.phases = s.phases.set i phase)
    (holds : ∀ order made notified, phase = .holding order made notified →
      (order.id, .ready) ∈ told ++ new)
    (wrote : ∀ entry ∈ book more, (entry.id, entry.fate.readiness) ∈ told ++ new) :
    Buzzing (told ++ new) (events ++ more) t := by
  refine ⟨?_, ?_⟩
  · intro j order made notified found
    rcases getElem?_set_cases (crew ▸ found) with ⟨_, rfl⟩ | ⟨_, before⟩
    · exact holds order made notified rfl
    · exact List.mem_append_left _ (all.held j order made notified before)
  · intro entry written
    rw [book_append] at written
    rcases List.mem_append.mp written with earlier | new
    · exact List.mem_append_left _ (all.booked entry earlier)
    · exact wrote entry new

theorem worker (all : Buzzing told events s) (here : s.workers[i]? = some ⟨old, report⟩)
    (move : WorkerMove s i report old action t more) :
    Buzzing (told ++ s.resolves action) (events ++ more) t := by
  have place := State.phases_of here
  have quiet : ∀ {phase : WorkerPhase}, t.phases = s.phases.set i phase →
      (∀ order made notified, phase ≠ .holding order made notified) → book more = [] →
      Buzzing (told ++ s.resolves action) (events ++ more) t := by
    intro phase crew other silent
    refine all.set crew (fun order made notified holds => absurd holds (other _ _ _)) ?_
    simp [silent]
  have crew : ∀ {s : State} {phase : WorkerPhase} {report : Report},
      (s.setWorker i ⟨phase, report⟩).phases = s.phases.set i phase :=
    State.phases_setWorker ..
  have ready : ∀ {order : Order} {made : Tray} {notified : Bool}, old = .holding order made notified →
      (order.id, .ready) ∈ told ++ s.resolves action := by
    rintro order made notified rfl
    exact List.mem_append_left _ (all.held i order made notified place)
  cases move with
  | @dispatch order =>
    refine quiet (State.phases_spread ..) (by simp) ?_
    rw [book_append, book, spread_shows _ _ _ fun _ _ => rfl]
    rfl
  | hold done =>
    refine all.set crew ?_ (by simp [book, Event.entry?])
    rintro _ _ _ ⟨⟩
    rw [resolves_done here done]
    simp
  | holdUnslotted done =>
    refine all.set crew (by simp) ?_
    rw [resolves_done here done]
    simp [book, Event.entry?, Fate.readiness, Ending.readiness]
  | fail done spoiled =>
    refine all.set crew (by simp) ?_
    rw [resolves_done here done]
    simp [book, Event.entry?, Fate.readiness, Ending.readiness, spoiled]
  | holdOn =>
    refine all.set crew ?_ (by simp [book])
    rintro _ _ _ ⟨⟩
    exact ready rfl
  | collected | expired =>
    refine all.set crew (by simp) ?_
    simpa [book, Event.entry?, Fate.readiness, Ending.readiness] using ready rfl
  | _ => exact quiet crew (by simp) rfl

theorem client (all : Buzzing told events s) (move : ClientMove s action t more) :
    Buzzing told (events ++ more) t := by
  cases move with
  | @placeWaking products i report _ _ sleeper =>
    have accepted : Buzzing told (events ++ []) (s.accept products) := all.same rfl rfl
    rw [List.append_nil] at accepted
    rw [← List.append_nil told]
    exact accepted.set (State.phases_setWorker _ i (.asleep true) report) (by simp)
      (by simp [book, Event.entry?])
  | @collectReady _ id =>
    refine all.map (·.wakePickup id) (State.phases_notifyPickup _ id) ?_ rfl
    intro phase order made notified holds
    cases phase <;> cases holds
    exact ⟨_, rfl⟩
  | usePager _ move => exact all.same (by rw [State.phases, move.frame.2.1]; rfl) (Ledger.book_pager move)
  | _ => exact all.same rfl rfl

theorem step (all : Buzzing told events s) (step : Transition s action t more) :
    Buzzing (told ++ s.resolves action) (events ++ more) t := by
  cases step with
  | worker here move => exact all.worker here move
  | runner _ move =>
    have quiet : s.resolves action = [] := by cases move <;> rfl
    rw [quiet, List.append_nil]
    exact all.same (by rw [State.phases, move.workers.1]; rfl) (Ledger.book_runner move)
  | client move =>
    have quiet : s.resolves action = [] := by cases move <;> rfl
    rw [quiet, List.append_nil]
    exact all.client move
  | shutdown _ move =>
    rw [show s.resolves _ = [] from rfl, List.append_nil]
    cases move with
    | wakeWorkers =>
      refine all.map (·.wake) (State.phases_wakeAllWorkers s) ?_ rfl
      intro phase order made notified holds
      exact ⟨notified, WorkerPhase.wake_eq holds (by simp)⟩
    | joinRunner _ ended => rcases ended with ⟨_, rfl⟩ | ⟨_, rfl⟩ <;> exact all.same rfl rfl
    | _ => exact all.same rfl rfl

theorem run (run : Run (.opened stations workers) actions events t) :
    Buzzing (along State.resolves (.opened stations workers) actions) events t := by
  induction run with
  | start => exact opened stations workers
  | next before ran ih =>
    rw [along_next _ before]
    exact ih.step (transition_of_step ran)

end Buzzing

end Kitchen.Engine
