import Kitchen.Proofs.Fulfilment

-- What comes of an order follows from what its jobs come to, and from nothing else. In every run of a
-- kitchen a worker that is busy with an order is one of those of which this holds.

namespace Kitchen.Engine

variable {s t : State} {action : Action} {actions : List Action} {events more : List Event}
  {i : Nat} {report before : Report} {order : Order} {phase old : WorkerPhase}
  {outcome : Option JobResult} {outcomes : List (Option JobResult)} {calls : List (String × Item)}
  {first : State} {stations : List String} {workers : Nat}

theorem WorkerMove.fulfils_before (move : WorkerMove s i report old action t events)
    (there : s.workers[i]? = some ⟨old, report⟩) {now : Report}
    (here : t.workers[i]? = some ⟨phase, now⟩) (busy : phase.fulfils order) :
    action.ofWorker i ∧
      (old = .claimed order ∧ phase = .awaiting order [] 0 ∨ old.fulfils order) := by
  have inside := (List.getElem?_eq_some_iff.mp there).1
  cases move with
  | dispatch =>
    rw [spread_setWorker, List.getElem?_set_self inside] at here
    cases here
    cases busy
    exact ⟨.inl rfl, .inl ⟨rfl, rfl⟩⟩
  | receive | hearBreak | hearNothing | fail =>
    cases (List.getElem?_set_self inside).symm.trans here
    exact ⟨.inl rfl, .inr busy⟩
  | @handBack _ _ ending | @skip _ _ ending =>
    cases (List.getElem?_set_self inside).symm.trans here
    cases ending with
    | failed => exact ⟨.inl rfl, .inr busy⟩
    | expired => cases busy
  | @accepted _ ending | @refused _ ending =>
    cases (List.getElem?_set_self inside).symm.trans here
    cases ending with
    | failed => exact ⟨.inr ⟨_, rfl⟩, .inr busy⟩
    | expired => cases busy
  | _ =>
    cases (List.getElem?_set_self inside).symm.trans here
    cases busy

theorem WorkerPhase.order_of_fulfils (busy : phase.fulfils order) : phase.order? = some order := by
  cases phase with
  | awaiting =>
    cases busy
    rfl
  | returning _ ending | handingBack _ ending =>
    cases ending <;> cases busy
    rfl
  | _ => cases busy

theorem said_agree {dropped others : List JobRef} {ref : JobRef}
    (agree : said (events ++ more) (dropped ++ others) ref = [] ∨
      said (events ++ more) (dropped ++ others) ref = [outcome]) :
    (said events dropped ref = [] ∨ said events dropped ref = [outcome]) ∧
      (said more others ref = [] ∨ said more others ref = [outcome]) := by
  have parts := said_perm events more dropped others ref
  rcases agree with none | one
  · rw [none] at parts
    obtain ⟨first, last⟩ := List.append_eq_nil_iff.mp parts.nil_eq.symm
    exact ⟨.inl first, .inl last⟩
  · rw [one] at parts
    rcases List.append_eq_singleton_iff.mp parts.singleton_eq.symm with ⟨first, last⟩ | ⟨first, last⟩
    · exact ⟨.inl first, .inr last⟩
    · exact ⟨.inr first, .inl last⟩

theorem WorkerMove.aside {k : Nat} (stock : Stock stations s) (orders : Orders s)
    (there : s.workers[k]? = some ⟨old, before⟩) (move : WorkerMove s k before old action t more)
    (place : s.phases[i]? = some phase) (busy : phase.fulfils order) (differ : k ≠ i)
    (position : Nat) : t.jobs.get? ⟨order.id, position⟩ = s.jobs.get? ⟨order.id, position⟩ := by
  have found := State.phases_of there
  have foreign : ∀ other position', old.order? = some other →
      (⟨other.id, position'⟩ : JobRef) ≠ ⟨order.id, position⟩ := by
    intro other position' has equal
    exact differ (orders.roster.apart k i _ _ other order found place has
      (WorkerPhase.order_of_fulfils busy) (congrArg JobRef.order equal))
  cases move with
  | @dispatch other =>
    have known := stock.held _ (List.mem_of_getElem? there) other rfl
    change (s.spread other).1.jobs.get? _ = _
    rw [(spread_spread stock known).2.signals, if_neg]
    rintro ⟨equal, _⟩
    exact foreign other position rfl (by rw [← equal])
  | receive | hearBreak | hearNothing => exact Table.get?_insert_of_ne _ _ (foreign _ _ rfl)
  | _ => rfl

-- A runner does no more to a job than to bring it to the end of which it speaks.
theorem RunnerMove.aside {j made : Nat} {station : String} {was : RunnerPhase} {out : Bool}
    {ref : JobRef} (jobs : Jobs s) (there : s.runners[j]? = some ⟨station, was, out, made⟩)
    (move : RunnerMove s j station out made was action t more)
    (agree : words s action more ref = [] ∨ words s action more ref = [outcome]) :
    t.jobs.get? ref = s.jobs.get? ref ∨
      s.jobs.get? ref = some .fresh ∧ t.jobs.get? ref = some (signalOf outcome) := by
  rcases runner_speaks jobs there move with ⟨_, signals⟩ |
      ⟨job, has, word, content, speaks, signals, fits⟩
  · exact .inl (by rw [signals])
  · rw [signals]
    split
    next mine =>
      have waiting := jobs.waiting_carried (List.mem_of_getElem? there) has
      refine .inr ⟨mine ▸ waiting, ?_⟩
      rcases agree with none | one
      · rw [speaks, if_pos mine] at none
        cases none
      · rw [speaks, if_pos mine] at one
        cases one
        cases outcome <;> cases fits <;> rfl
    next => exact .inl rfl

-- Whoever takes a step while a worker is busy with an order is the worker itself, or leaves it alone
-- and does no more to the jobs of the order than to bring one to its end.
theorem own_or_aside (stock : Stock stations s) (jobs : Jobs s) (orders : Orders s)
    (step : Transition s action t more) (here : t.workers[i]? = some ⟨phase, report⟩)
    (busy : phase.fulfils order) (agree : ∀ (position : Nat) outcome,
      outcomes[position]? = some outcome → words s action more ⟨order.id, position⟩ = [] ∨
        words s action more ⟨order.id, position⟩ = [outcome]) :
    (∃ old was, s.workers[i]? = some ⟨old, was⟩ ∧ WorkerMove s i was old action t more) ∨
      t.workers[i]? = s.workers[i]? ∧ ∀ (position : Nat) outcome, outcomes[position]? = some outcome →
        t.jobs.get? ⟨order.id, position⟩ = s.jobs.get? ⟨order.id, position⟩ ∨
          s.jobs.get? ⟨order.id, position⟩ = some .fresh ∧
            t.jobs.get? ⟨order.id, position⟩ = some (signalOf outcome) := by
  have awake : ∀ f : Worker → Worker, t.workers = s.workers.map f →
      (∀ worker, (f worker).phase.fulfils order → f worker = worker) →
      t.workers[i]? = s.workers[i]? := by
    intro f crew only
    rw [crew, List.getElem?_map] at here
    obtain ⟨worker, there, same⟩ := Option.map_eq_some_iff.mp here
    have still := only worker (by rw [same]; exact busy)
    rw [crew, List.getElem?_map, there, Option.map_some, still]
  cases step with
  | @worker k _ _ _ _ _ there move =>
    by_cases mine : k = i
    · subst mine
      exact .inl ⟨_, _, there, move⟩
    · obtain ⟨worker, crew⟩ := move.workers
      have same : t.workers[i]? = s.workers[i]? := by rw [crew, List.getElem?_set_ne mine]
      have place : s.phases[i]? = some phase := State.phases_of (same ▸ here)
      exact .inr ⟨same, fun position _ _ => .inl (move.aside stock orders there place busy mine position)⟩
  | runner there move =>
    refine .inr ⟨by rw [move.workers.1], ?_⟩
    intro position outcome came
    exact move.aside jobs there (agree position outcome came)
  | client move =>
    right
    cases move with
    | @placeWaking products k was _ _ sleeper =>
      refine ⟨?_, fun _ _ _ => .inl rfl⟩
      have differ : k ≠ i := by
        rintro rfl
        have inside := (List.getElem?_eq_some_iff.mp sleeper).1
        cases (List.getElem?_set_self inside).symm.trans here
        cases busy
      exact List.getElem?_set_ne differ
    | @collectReady _ id =>
      refine ⟨awake (State.wakePickup id) rfl ?_, fun _ _ _ => .inl rfl⟩
      rintro ⟨phase, report⟩ still
      cases phase with
      | holding =>
        rw [State.wakePickup_phase] at still
        cases still
      | _ => rfl
    | usePager _ move =>
      obtain ⟨_, workers, _, signals, _⟩ := move.frame
      exact ⟨by rw [workers], fun _ _ _ => .inl (by rw [signals])⟩
    | _ => exact ⟨rfl, fun _ _ _ => .inl rfl⟩
  | shutdown _ move =>
    right
    refine ⟨?_, fun _ _ _ => .inl (by rw [move.frame.2.2.2.2.2.1])⟩
    cases move with
    | wakeWorkers =>
      refine awake State.wakeWorker rfl ?_
      rintro ⟨phase, report⟩ still
      cases phase with
      | asleep => cases still
      | _ => rfl
    | _ => rfl

theorem Begins.of_dispatch (stock : Stock stations s) (later : Stock stations t) (orders : Orders t)
    (there : s.workers[i]? = some ⟨.claimed order, report⟩)
    (move : WorkerMove s i report (.claimed order) action t more)
    (here : t.workers[i]? = some ⟨.awaiting order [] 0, before⟩)
    (aligned : outcomes.length = order.products.length) :
    Begins i order outcomes before t := by
  have known := stock.held _ (List.mem_of_getElem? there) order rfl
  have fits : (t.view order.id).slot = some ⟨.dispatched, true⟩ :=
    (orders.had i _ order (State.phases_of here) rfl).1
  cases move with
  | claim seeks | leave seeks | rest seeks => cases seeks
  | dispatch =>
    refine ⟨here, aligned, ⟨_, fits⟩, ?_, ?_⟩
    · intro position outcome found
      have inside := (List.getElem?_eq_some_iff.mp found).1
      change (s.spread order).1.jobs.get? _ = _ ∨ _
      rw [(spread_spread stock known).2.signals, if_pos]
      · exact .inl rfl
      · exact ⟨rfl, Nat.zero_le _, by rw [Nat.zero_add]; exact aligned ▸ inside⟩
    · intro product item member
      have ordered := (List.of_mem_zip (mem_yielded.mp member)).1
      exact (later.hasStation_iff product).mpr (known product ordered)

-- In every run of a kitchen a worker that is busy with an order began so, whatever the jobs came to.
theorem fulfils_of_run (run : Run (.opened stations workers) actions events s)
    (here : s.workers[i]? = some ⟨phase, report⟩) (busy : phase.fulfils order)
    (aligned : outcomes.length = order.products.length)
    (agree : ∀ (position : Nat) outcome, outcomes[position]? = some outcome →
      said events ((State.opened stations workers).abandoned actions) ⟨order.id, position⟩ = [] ∨
        said events ((State.opened stations workers).abandoned actions) ⟨order.id, position⟩ =
          [outcome]) :
    ∃ earlier later shown seen before first calls, actions = earlier ++ later ∧
      Run (.opened stations workers) earlier shown first ∧ Run first later seen s ∧
      Fulfils i order outcomes before first calls s := by
  induction run generalizing phase report with
  | start =>
    cases State.phases_opened (State.phases_of here)
    cases busy
  | @next done past _ middle last action before ran ih =>
    have stock := (Stock.opened stations workers).run before
    have orders := (Orders.opened stations workers).run before
    have jobs := (Jobs.opened stations workers).run (Stock.opened stations workers)
      (Orders.opened stations workers) before
    have step := transition_of_step ran
    have orders' := orders.step step
    have stock' := stock.step step
    rw [abandoned_next before] at agree
    have early := fun position outcome found => (said_agree (agree position outcome found)).1
    have late := fun position outcome found => (said_agree (agree position outcome found)).2
    rcases own_or_aside stock jobs orders step here busy late with
      ⟨old, was, there, move⟩ | ⟨same, signals⟩
    · obtain ⟨mine, ⟨rfl, rfl⟩ | still⟩ := move.fulfils_before there here busy
      · exact ⟨done ++ [action], [], _, [], report, last, [], by simp, .next before ran, .start,
          .start (.of_dispatch stock stock' orders' there move here aligned)⟩
      · obtain ⟨earlier, later, shown, seen, report', first, calls, rfl, begun, since, fulfils⟩ :=
          ih there still early
        exact ⟨earlier, later ++ [action], shown, _, report', first, _, by simp, begun,
          .next since ran, fulfils.own there still mine ran⟩
    · obtain ⟨earlier, later, shown, seen, report', first, calls, rfl, begun, since, fulfils⟩ :=
        ih (same ▸ here) busy early
      refine ⟨earlier, later ++ [action], shown, _, report', first, calls, by simp, begun,
        .next since ran, fulfils.others ⟨same, ?_, signals, ?_⟩⟩
      · rintro ⟨made, failed, now, waits⟩ _
        have fits := orders'.had i _ order (State.phases_of here) (WorkerPhase.order_of_fulfils busy)
        rw [same, waits] at here
        cases here
        exact ⟨_, fits.1⟩
      · intro product
        rw [Bool.eq_iff_iff, stock'.hasStation_iff, stock.hasStation_iff]

theorem returning_steps {ending : Ending} {rest : Tray}
    (here : s.workers[i]? = some ⟨.returning order ending rest, report⟩) :
    (s.step (.worker i)).isSome = true := by
  cases rest with
  | nil => simp [State.step, State.stepWorker, here]
  | cons entry rest =>
    simp only [State.step, State.stepWorker, here]
    split <;> rfl

theorem handing_steps {ending : Ending} {product : String} {item : Item} {rest : Tray}
    (here : s.workers[i]? = some ⟨.handingBack order ending product item rest, report⟩)
    (end' : Acceptance) : (s.step (.returned i end')).isSome = true := by
  simp only [State.step, State.stepReturned, here]
  cases end' <;> rfl

-- Whatever the jobs of an order come to, and in whatever order they do so before or while the worker
-- waits, it listens to each of them, hears of one exactly if that one is at its end, and once all are
-- has the same products, in the order in which they were ordered, the same count and names of those
-- that failed, and the same ready or failed order. Of a failed one it gives every product back, each
-- once, to the station of its own name, and nothing else. It is so in every run of a kitchen.
theorem outcome_follows_from_jobs (past : Fulfils i order outcomes before first calls s)
    (here : s.workers[i]? = some ⟨phase, report⟩) :
    (∀ made failed, phase = .awaiting order made failed →
      made.length + failed ≤ order.products.length ∧
      (made.length + failed < order.products.length →
        ((s.step (.worker i)).isSome = true ↔
          s.jobs.get? ⟨order.id, made.length + failed⟩ ≠ some .fresh)) ∧
      (made.length + failed = order.products.length →
        Concludes i order outcomes before s made failed report) ∧
      ((∀ (position : Nat) outcome, made.length + failed ≤ position →
          outcomes[position]? = some outcome →
            s.jobs.get? ⟨order.id, position⟩ = some (signalOf outcome)) →
        ∃ later more t made failed report, Run s later more t ∧
          (∀ action ∈ later, action = .worker i) ∧
          t.workers[i]? = some ⟨.awaiting order made failed, report⟩ ∧
          made.length + failed = order.products.length)) ∧
    (yielded (entries order outcomes)).length + (missed (entries order outcomes)).length =
      order.products.length ∧
    calls <+: yielded (entries order outcomes) ∧ (calls ≠ [] → Spoiled outcomes) ∧
    (∀ rest, phase = .returning order .failed rest →
      report = spoilt order outcomes before ∧ calls ++ rest = yielded (entries order outcomes) ∧
        (s.step (.worker i)).isSome = true) ∧
    (∀ product item rest, phase = .handingBack order .failed product item rest →
      report = spoilt order outcomes before ∧ calls ++ rest = yielded (entries order outcomes) ∧
        ∀ end', (s.step (.returned i end')).isSome = true) ∧
    (phase = .free →
      report = spoilt order outcomes before ∧ calls = yielded (entries order outcomes)) ∧
    (∀ j other before' first' calls' t made failed made' failed' report',
      Fulfils j other outcomes before' first' calls' t → other.products = order.products →
      t.workers[j]? = some ⟨.awaiting other made' failed', report'⟩ →
      phase = .awaiting order made failed → made.length + failed = order.products.length →
      made'.length + failed' = order.products.length →
        made = made' ∧ failed = failed' ∧
          ∃ names, report = before.missing names ∧ report' = before'.missing names) ∧
    (∀ stations workers actions events (u : State), Run (.opened stations workers) actions events u →
      ∀ k phase report other came, u.workers[k]? = some ⟨phase, report⟩ → phase.fulfils other →
        came.length = other.products.length →
        (∀ (position : Nat) outcome, came[position]? = some outcome →
          said events ((State.opened stations workers).abandoned actions) ⟨other.id, position⟩ = [] ∨
            said events ((State.opened stations workers).abandoned actions) ⟨other.id, position⟩ =
              [outcome]) →
        ∃ earlier later shown seen before first calls, actions = earlier ++ later ∧
          Run (.opened stations workers) earlier shown first ∧ Run first later seen u ∧
          Fulfils k other came before first calls u) := by
  obtain ⟨aligned, _, _, _, there, stage⟩ := past.stage
  cases here.symm.trans there
  have total := yielded_missed (entries order outcomes)
  rw [length_entries aligned] at total
  refine ⟨?_, total, ?_, ?_, ?_, ?_, ?_, ?_, ?_⟩
  · rintro made failed rfl
    obtain ⟨n, place, heard, rfl, rfl, rfl⟩ := past.heard here
    rw [place]
    refine ⟨heard.short, fun below => listens_iff aligned heard below here, ?_, ?_⟩
    · exact fun whole => past.concludes here (place.trans whole)
    · intro ended
      obtain ⟨later, more, t, run, alone, arrived⟩ := listens_out aligned here heard.short ended
      exact ⟨later, more, t, _, _, _, run, alone, arrived, place_eq aligned (Nat.le_refl _)⟩
  · cases stage with
    | listening | ready => exact List.nil_prefix
    | returning _ split | handing _ split | crashed _ split => exact ⟨_, split⟩
    | told => exact List.prefix_refl _
  · intro some
    cases stage with
    | listening | ready => exact absurd rfl some
    | returning spoiled | handing spoiled | crashed spoiled | told spoiled => exact spoiled
  · rintro rest rfl
    obtain ⟨same, split⟩ := stage.of_returning
    exact ⟨same, split, returning_steps here⟩
  · rintro product item rest rfl
    obtain ⟨same, split⟩ := stage.of_handing
    exact ⟨same, split, handing_steps here⟩
  · rintro rfl
    exact stage.of_free
  · rintro j other before' first' calls' t made failed made' failed' report' rival alike waits rfl whole
      whole'
    refine (past.concludes here whole).same (rival.concludes waits ?_) alike
    rw [whole', alike]
  · intro stations workers actions events u run k phase report other came found busy fits agree
    exact fulfils_of_run run found busy fits agree

-- Fries and a burger are ordered, and the fryer breaks down over the fries. The worker has heard of
-- both jobs.
def mixedOrder : List Action :=
  [.worker 0, .runner 0, .runner 1, .order ["fries", "burger"] none, .worker 0, .worker 0] ++
    [.runner 1, .runner 1, .produced 1 (.broke (.failure "cold oil")), .runner 1, .runner 1] ++
    [.runner 0, .runner 0, .produced 0 (.made .burger), .runner 0, .worker 0, .worker 0]

def mixedOutcomes : List (Option JobResult) :=
  [some (.broke (.failure "cold oil")), some (.made ⟨"burger", 0, .burger⟩)]

theorem mixedOrder_fails :
    let s := ((State.opened ["burger", "fries"] 1).after mixedOrder).1
    ∃ t more, s.step (.worker 0) = some (t, more) ∧ t.board.orderState 0 = some .failed ∧
      t.workers[0]? = some ⟨.returning ⟨0, ["fries", "burger"]⟩ .failed
        [("burger", ⟨"burger", 0, .burger⟩)], ⟨[], [], [["fries", "burger"]], ["fries"]⟩⟩ := by
  intro s
  have run : Run (.opened ["burger", "fries"] 1) mixedOrder _ s := run_after (by decide +kernel)
  have here : s.workers[0]? = some ⟨.awaiting ⟨0, ["fries", "burger"]⟩
      [("burger", ⟨"burger", 0, .burger⟩)] 1, ⟨[], [], [], ["fries"]⟩⟩ := by
    decide +kernel
  have broke : said ((State.opened ["burger", "fries"] 1).after mixedOrder).2
      ((State.opened ["burger", "fries"] 1).abandoned mixedOrder) ⟨0, 0⟩ =
        [some (.broke (.failure "cold oil"))] := by
    decide +kernel
  have made : said ((State.opened ["burger", "fries"] 1).after mixedOrder).2
      ((State.opened ["burger", "fries"] 1).abandoned mixedOrder) ⟨0, 1⟩ =
        [some (.made ⟨"burger", 0, .burger⟩)] := by
    decide +kernel
  have agree : ∀ (position : Nat) outcome, mixedOutcomes[position]? = some outcome →
      said ((State.opened ["burger", "fries"] 1).after mixedOrder).2
          ((State.opened ["burger", "fries"] 1).abandoned mixedOrder) ⟨0, position⟩ = [] ∨
        said ((State.opened ["burger", "fries"] 1).after mixedOrder).2
          ((State.opened ["burger", "fries"] 1).abandoned mixedOrder) ⟨0, position⟩ = [outcome] := by
    intro position outcome found
    match position with
    | 0 =>
      cases found
      exact .inr broke
    | 1 =>
      cases found
      exact .inr made
    | _ + 2 => cases found
  have busy : WorkerPhase.fulfils ⟨0, ["fries", "burger"]⟩ (.awaiting ⟨0, ["fries", "burger"]⟩
      [("burger", ⟨"burger", 0, .burger⟩)] 1) := rfl
  obtain ⟨_, _, _, _, before, _, _, _, _, _, past⟩ := fulfils_of_run run here busy rfl agree
  obtain ⟨waits, _⟩ := outcome_follows_from_jobs past here
  obtain ⟨_, _, whole, _⟩ := waits _ _ rfl
  obtain ⟨_, _, report, _, t, more, ran, failed, _, fails, _⟩ := whole rfl
  have spoiled : Spoiled mixedOutcomes := ⟨_, .head _, by simp⟩
  have goes := fails spoiled
  rw [spoilt, ← report] at goes
  exact ⟨t, more, ran, failed.mpr spoiled, goes⟩

end Kitchen.Engine
