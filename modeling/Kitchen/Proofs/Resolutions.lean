import Kitchen.Proofs.Provenance
import Kitchen.Proofs.Serving

-- What is said of each job: one result, or nothing where its runner was killed over it, and never
-- both. The job's signal shows what was said, and a worker gathers just that.

namespace Kitchen.Engine

variable {s t : State} {action : Action} {actions : List Action} {events more : List Event}
  {call : CallId} {id : OrderId} {i : Nat} {report : Report} {order : Order} {made : Tray}
  {old : WorkerPhase} {was : RunnerPhase} {stations : List String} {workers : Nat} {ref : JobRef}
  {dropped : List JobRef}

def Event.resolved? : Event → Option (JobRef × JobResult)
  | .jobResolved ref result => some (ref, result)
  | _ => none

def resolutions (events : List Event) : List (JobRef × JobResult) :=
  events.filterMap Event.resolved?

theorem resolutions_append (events more : List Event) :
    resolutions (events ++ more) = resolutions events ++ resolutions more :=
  List.filterMap_append

-- The job over which a runner is killed in this step.
def State.abandons (s : State) : Action → List JobRef
  | .produced index .crashed =>
    match s.runners[index]? with
    | some ⟨_, .producing job, _, _⟩ => [job.slot]
    | _ => []
  | _ => []

def State.abandoned (s : State) (actions : List Action) : List JobRef := along State.abandons s actions

theorem abandoned_next (run : Run s actions events t) (action : Action) :
    s.abandoned (actions ++ [action]) = s.abandoned actions ++ t.abandons action :=
  along_next State.abandons run action

theorem abandoned_sound (run : Run s actions events t)
    (sound : ∀ index, .produced index .crashed ∉ actions) : s.abandoned actions = [] := by
  induction run with
  | start => rfl
  | @next _ _ _ middle _ action before _ ih =>
    rw [abandoned_next before, ih fun index crashed => sound index (List.mem_append_left _ crashed)]
    unfold State.abandons
    split
    next index _ => exact absurd (List.mem_append_right _ (.head _)) (sound index)
    next => rfl

def resultsOf (ref : JobRef) (events : List Event) : List JobResult :=
  ((resolutions events).filter (·.1 = ref)).map (·.2)

theorem resultsOf_append (ref : JobRef) (events more : List Event) :
    resultsOf ref (events ++ more) = resultsOf ref events ++ resultsOf ref more := by
  rw [resultsOf, resolutions_append, List.filter_append, List.map_append]
  rfl

def said (events : List Event) (dropped : List JobRef) (ref : JobRef) : List (Option JobResult) :=
  (resultsOf ref events).map some ++ (dropped.filter (· = ref)).map fun _ => none

theorem said_perm (events more : List Event) (dropped others : List JobRef) (ref : JobRef) :
    (said (events ++ more) (dropped ++ others) ref).Perm
      (said events dropped ref ++ said more others ref) := by
  simp only [said, resultsOf_append, List.filter_append, List.map_append, List.append_assoc]
  refine List.Perm.append_left _ ?_
  rw [← List.append_assoc, ← List.append_assoc]
  exact List.perm_append_comm.append_right _

theorem said_quiet (quiet : said more others ref = []) :
    said (events ++ more) (dropped ++ others) ref = said events dropped ref := by
  obtain ⟨results, nothing⟩ := List.append_eq_nil_iff.mp quiet
  simp only [said, resultsOf_append, List.filter_append, List.map_append, results, nothing,
    List.append_nil]

theorem said_silent (silent : ∀ ref, said more others ref = []) :
    said (events ++ more) (dropped ++ others) = said events dropped :=
  funext fun ref => said_quiet (silent ref)

theorem said_first (first : said events dropped ref = []) :
    said (events ++ more) (dropped ++ others) ref = said more others ref := by
  obtain ⟨results, nothing⟩ := List.append_eq_nil_iff.mp first
  simp only [said, resultsOf_append, List.filter_append, List.map_append, results, nothing,
    List.nil_append]

theorem mem_said {result : JobResult} :
    some result ∈ said events dropped ref ↔ (ref, result) ∈ resolutions events := by
  simp only [said, resultsOf, List.mem_append, List.mem_map, List.mem_filter, decide_eq_true_eq,
    Option.some.injEq, reduceCtorEq, and_false, exists_false, or_false, exists_eq_right]
  constructor
  · rintro ⟨⟨_, _⟩, ⟨member, rfl⟩, rfl⟩
    exact member
  · exact fun member => ⟨_, ⟨member, rfl⟩, rfl⟩

-- What a job's signal looks like once this was said of the job.
inductive Spoken : Option (Signal JobResult) → List (Option JobResult) → Prop where
  | unposted : Spoken none []
  | waiting : Spoken (some ⟨.waiting, heard⟩) []
  | holding : Spoken (some ⟨.holding result, heard⟩) [some result]
  | closed : Spoken (some ⟨.closed, heard⟩) [word]

theorem Spoken.unsaid (spoken : Spoken (some ⟨.waiting, heard⟩) words) : words = [] := by
  cases spoken
  rfl

theorem Spoken.held (spoken : Spoken (some ⟨.holding result, heard⟩) words) : words = [some result] := by
  cases spoken
  rfl

theorem Spoken.short (spoken : Spoken signal words) : words.length ≤ 1 := by
  cases spoken <;> simp

def Said (words : JobRef → List (Option JobResult)) (s : State) : Prop :=
  ∀ ref, Spoken (s.jobs.get? ref) (words ref)

def words (s : State) (action : Action) (more : List Event) (ref : JobRef) : List (Option JobResult) :=
  said more (s.abandons action) ref

theorem words_nothing (quiet : s.abandons action = []) (silent : resolutions more = []) (ref : JobRef) :
    words s action more ref = [] := by
  simp [words, said, resultsOf, quiet, silent]

theorem words_result {result : JobResult} (quiet : s.abandons action = [])
    (shows : resolutions more = [(other, result)]) (ref : JobRef) :
    words s action more ref = if other = ref then [some result] else [] := by
  by_cases same : other = ref <;> simp [words, said, resultsOf, quiet, shows, same]

theorem worker_abandons (move : WorkerMove s i report old action t events) :
    s.abandons action = [] := by
  rcases move.own with rfl | rfl | ⟨_, rfl⟩ <;> rfl

theorem client_abandons (move : ClientMove s action t events) : s.abandons action = [] := by
  cases move <;> rfl

theorem worker_resolves (stock : Stock stations s) (here : s.workers[i]? = some ⟨old, report⟩)
    (move : WorkerMove s i report old action t events) : resolutions events = [] := by
  cases move with
  | @dispatch order =>
    have known := stock.held _ (List.mem_of_getElem? here) order rfl
    rw [(spread_spread stock known).1]
    rfl
  | _ => rfl

theorem pager_resolves (move : PagerMove s call id use stage t events) : resolutions events = [] := by
  rcases move.answers with rfl | ⟨_, rfl⟩ | ⟨_, rfl⟩ | rfl <;> rfl

theorem client_resolves (move : ClientMove s action t events) : resolutions events = [] := by
  cases move with
  | usePager _ move => exact pager_resolves move
  | _ => rfl

theorem shutdown_resolves (move : ShutdownMove s call stage t events) : resolutions events = [] := by
  cases move with
  | joinRunner _ ended => rcases ended with ⟨_, rfl⟩ | ⟨_, rfl⟩ <;> rfl
  | _ => rfl

-- What a runner's step says, and what the signals are then. It speaks of one of its own jobs.
theorem runner_speaks {calls : Nat} (jobs : Jobs s)
    (here : s.runners[i]? = some ⟨station, was, out, calls⟩)
    (move : RunnerMove s i station out calls was action t events) :
    ((∀ ref, words s action events ref = []) ∧ t.jobs = s.jobs) ∨
    ∃ job ∈ was.jobs, ∃ word content, (∀ ref, words s action events ref =
        if job.slot = ref then [word] else []) ∧
      (∀ ref, t.jobs.get? ref = if job.slot = ref then some ⟨content, true⟩ else s.jobs.get? ref) ∧
      match word with
      | some result => content = .holding result
      | none => content = .closed := by
  have waiting : ∀ job ∈ was.jobs, s.jobs.get? job.slot = some ⟨.waiting, true⟩ :=
    fun job has => jobs.waiting_carried (List.mem_of_getElem? here) has
  have speak : ∀ job ∈ was.jobs, ∀ (change : Signal JobResult → Signal JobResult)
      (content : Signal.Content JobResult), change ⟨.waiting, true⟩ = ⟨content, true⟩ →
      t.jobs = s.jobs.modify job.slot change → ∀ ref, t.jobs.get? ref =
        if job.slot = ref then some ⟨content, true⟩ else s.jobs.get? ref := by
    intro job has change content changed signals ref
    rw [signals, Table.get?_modify]
    split
    next same => rw [← same, waiting job has, Option.map_some, changed]
    next => rfl
  cases move with
  | refuse | sweep =>
    exact .inr ⟨_, .head _, some _, _, words_result rfl rfl, speak _ (.head _) _ _ rfl rfl, rfl⟩
  | @handOver job item =>
    refine .inr ⟨job, .head _, some (.made item), _, words_result rfl ?_,
      speak job (.head _) _ _ rfl rfl, rfl⟩
    simp only [resolutions, List.filterMap_cons, Event.resolved?]
    split <;> rfl
  | @crash job =>
    refine .inr ⟨job, .head _, none, .closed, ?_, speak job (.head _) _ _ rfl rfl, rfl⟩
    intro ref
    by_cases same : job.slot = ref <;> simp [words, said, resultsOf, resolutions, State.abandons, here, same]
  | _ => exact .inl ⟨words_nothing rfl rfl, rfl⟩

namespace Said

variable {spoken : JobRef → List (Option JobResult)}

theorem opened (stations : List String) (workers : Nat) :
    Said (said [] []) (.opened stations workers) :=
  fun _ => .unposted

theorem quiet (all : Said spoken s) (hears : ∀ ref word, Spoken (s.jobs.get? ref) word →
    Spoken (t.jobs.get? ref) word) : Said spoken t :=
  fun ref => hears ref _ (all ref)

theorem nothing_said (all : Said spoken s)
    (waiting : s.jobs.get? ref = some ⟨.waiting, true⟩) : spoken ref = [] :=
  Spoken.unsaid (waiting ▸ all ref)

-- A signal that was heard or told no more than before shows the same.
theorem hear {heard : Bool} (signals : t.jobs = s.jobs.insert other ⟨.closed, heard⟩)
    (found : s.jobs.get? other = some ⟨content, heard⟩) (spoke : content ≠ .waiting)
    (all : Said spoken s) : Said spoken t := by
  refine all.quiet ?_
  intro ref word before
  rw [signals, Table.get?_insert]
  split
  next same =>
    subst same
    rw [found] at before
    cases before with
    | waiting => exact absurd rfl spoke
    | holding | closed => exact .closed
  next => exact before

theorem worker (all : Said spoken s) (stock : Stock stations s) (jobs : Jobs s)
    (here : s.workers[i]? = some ⟨old, report⟩)
    (move : WorkerMove s i report old action t events) : Said spoken t := by
  cases move with
  | @dispatch order =>
    have known := stock.held _ (List.mem_of_getElem? here) order rfl
    refine all.quiet ?_
    intro ref word before
    change Spoken ((s.spread order).1.jobs.get? ref) word
    rw [(spread_spread stock known).2.signals]
    split
    next within =>
      rw [jobs.unknown (State.phases_of here) within.1] at before
      cases before
      exact .waiting
    next => exact before
  | receive _ found | hearBreak _ found | hearNothing _ found => exact all.hear rfl found (by simp)
  | _ => exact all.quiet fun _ _ => id

-- Of a job that is not answered nothing was said, so that it is answered once.
theorem runner {calls : Nat} {events : List Event} (all : Said (said events dropped) s)
    (jobs : Jobs s) (here : s.runners[i]? = some ⟨station, was, out, calls⟩)
    (move : RunnerMove s i station out calls was action t more) :
    Said (said (events ++ more) (dropped ++ s.abandons action)) t := by
  intro ref
  rcases runner_speaks jobs here move with ⟨silent, signals⟩ |
      ⟨job, has, word, content, speaks, signals, fits⟩
  · rw [signals, said_quiet (silent ref)]
    exact all ref
  · rw [signals]
    have said := speaks ref
    split at said
    next same =>
      subst same
      have waiting := jobs.waiting_carried (List.mem_of_getElem? here) has
      rw [if_pos rfl, said_first (all.nothing_said waiting), ← words, said]
      cases word <;> cases fits
      · exact .closed
      · exact .holding
    next differ =>
      rw [if_neg differ, said_quiet said]
      exact all ref

theorem step (all : Said (said events dropped) s) (stock : Stock stations s) (jobs : Jobs s)
    (step : Transition s action t more) :
    Said (said (events ++ more) (dropped ++ s.abandons action)) t := by
  have silent : s.abandons action = [] → resolutions more = [] → Said (said events dropped) t →
      Said (said (events ++ more) (dropped ++ s.abandons action)) t := by
    intro quiet nothing still ref
    rw [said_quiet (words_nothing quiet nothing ref)]
    exact still ref
  cases step with
  | worker here move =>
    exact silent (worker_abandons move) (worker_resolves stock here move)
      (all.worker stock jobs here move)
  | runner here move => exact all.runner jobs here move
  | client move =>
    refine silent (client_abandons move) (client_resolves move) (all.quiet ?_)
    cases move with
    | usePager _ move =>
      rw [move.frame.2.2.2.1]
      exact fun _ _ => id
    | _ => exact fun _ _ => id
  | shutdown _ move =>
    refine silent rfl (shutdown_resolves move) (all.quiet ?_)
    rw [move.frame.2.2.2.2.2.1]
    exact fun _ _ => id

theorem run (run : Run (.opened stations workers) actions events t) :
    Said (said events ((State.opened stations workers).abandoned actions)) t := by
  have stock := Stock.opened stations workers
  have orders := Orders.opened stations workers
  induction run with
  | start => exact opened stations workers
  | next before ran ih =>
    rw [abandoned_next before]
    exact ih.step (stock.run before) ((Jobs.opened stations workers).run stock orders before)
      (transition_of_step ran)

theorem once (all : Said spoken s) (ref : JobRef) : (spoken ref).length ≤ 1 := (all ref).short

theorem stays {dropped others : List JobRef}
    (all : Said (said (events ++ more) (dropped ++ others)) t) (told : said events dropped ref ≠ []) :
    said (events ++ more) (dropped ++ others) ref = said events dropped ref := by
  refine said_quiet (List.eq_nil_of_length_eq_zero ?_)
  have short := all.once ref
  rw [(said_perm ..).length_eq, List.length_append] at short
  have some := List.length_pos_iff.mpr told
  omega

theorem resolved_once (all : Said (said events dropped) s) :
    ((resolutions events).map (·.1)).Nodup := by
  rw [List.nodup_iff_count]
  intro ref
  have short := all.once ref
  rw [said, resultsOf, List.length_append, List.length_map, List.length_map,
    ← List.countP_eq_length_filter] at short
  rw [List.count, List.countP_map]
  refine Nat.le_trans (Nat.le_of_eq (List.countP_congr fun entry _ => ?_))
    (Nat.le_trans (Nat.le_add_right ..) short)
  simp

end Said

-- A product that a runner holds, or has handed over for a job, was made for that job.
structure Sourced (made : List (JobRef × Item)) (events : List Event) (s : State) : Prop where
  hand : ∀ runner ∈ s.runners, ∀ (job : Job JobRef) (item : Item),
    runner.phase = .holding job item → (job.slot, item) ∈ made
  sent : ∀ ref item, (ref, .made item) ∈ resolutions events → (ref, item) ∈ made

namespace Sourced

variable {made : List (JobRef × Item)}

theorem opened (stations : List String) (workers : Nat) :
    Sourced [] [] (.opened stations workers) := by
  refine ⟨?_, by simp [resolutions]⟩
  intro runner member job item holds
  obtain ⟨station, _, rfl⟩ := List.mem_map.mp member
  cases holds

theorem map (sourced : Sourced made events s) (f : Runner → Runner)
    (runners : t.runners = s.runners.map f)
    (holds : ∀ (runner : Runner) (job : Job JobRef) (item : Item),
      (f runner).phase = .holding job item → runner.phase = .holding job item)
    (silent : resolutions more = []) : Sourced made (events ++ more) t := by
  refine ⟨?_, ?_⟩
  · intro runner member job item has
    rw [runners] at member
    obtain ⟨before, was, rfl⟩ := List.mem_map.mp member
    exact sourced.hand before was job item (holds before job item has)
  · intro ref item shown
    rw [resolutions_append, silent, List.append_nil] at shown
    exact sourced.sent ref item shown

theorem same (sourced : Sourced made events s) (runners : t.runners = s.runners)
    (silent : resolutions more = []) : Sourced made (events ++ more) t :=
  sourced.map id (by rw [runners, List.map_id]) (fun _ _ _ => id) silent

theorem set {now : Runner} {new : List (JobRef × Item)} (sourced : Sourced made events s)
    (runners : t.runners = s.runners.set i now)
    (hand : ∀ job item, now.phase = .holding job item → (job.slot, item) ∈ made ++ new)
    (sent : ∀ ref item, (ref, .made item) ∈ resolutions more → (ref, item) ∈ made) :
    Sourced (made ++ new) (events ++ more) t := by
  refine ⟨?_, ?_⟩
  · intro runner member job item has
    rw [runners] at member
    rcases List.mem_or_eq_of_mem_set member with old | rfl
    · exact List.mem_append_left _ (sourced.hand runner old job item has)
    · exact hand job item has
  · intro ref item shown
    rw [resolutions_append] at shown
    rcases List.mem_append.mp shown with earlier | new
    · exact List.mem_append_left _ (sourced.sent ref item earlier)
    · exact List.mem_append_left _ (sent ref item new)

theorem runner {calls : Nat} (sourced : Sourced made events s)
    (here : s.runners[i]? = some ⟨station, was, out, calls⟩)
    (move : RunnerMove s i station out calls was action t more) :
    Sourced (made ++ s.makes action) (events ++ more) t := by
  cases move with
  | handOver =>
    refine sourced.set rfl (by simp) ?_
    intro ref item shown
    simp only [resolutions, List.filterMap_cons, Event.resolved?] at shown
    rcases List.mem_cons.mp shown with same | none
    · cases same
      exact sourced.hand _ (List.mem_of_getElem? here) _ _ rfl
    · split at none <;> cases none
  | @make job product =>
    refine sourced.set rfl ?_ (by simp [resolutions])
    rintro _ _ ⟨⟩
    simp [State.makes, here]
  | refuse _ result =>
    subst result
    exact sourced.set rfl (by simp) (by simp [resolutions, Event.resolved?])
  | _ => exact sourced.set rfl (by simp) (by simp [resolutions, Event.resolved?])

theorem step (sourced : Sourced made events s) (stock : Stock stations s)
    (step : Transition s action t more) : Sourced (made ++ s.makes action) (events ++ more) t := by
  cases step with
  | worker here move =>
    have silent := worker_resolves stock here move
    rw [(worker_idle move).1, List.append_nil]
    cases move with
    | @dispatch order =>
      obtain ⟨woken, runners⟩ := spread_runners s order
      refine sourced.map _ runners ?_ silent
      intro runner job item holds
      split at holds
      · exact wakeRunner_holding holds
      · exact holds
    | _ => exact sourced.same rfl silent
  | runner here move => exact sourced.runner here move
  | client move =>
    have silent := client_resolves move
    rw [(client_idle move).1, List.append_nil]
    cases move with
    | usePager _ move => exact sourced.same move.frame.2.2.1 silent
    | _ => exact sourced.same rfl silent
  | shutdown _ move =>
    have silent := shutdown_resolves move
    simp only [State.makes, List.append_nil]
    cases move with
    | wakeStations | wakeReleased =>
      exact sourced.map State.wakeRunner rfl (fun _ _ _ => wakeRunner_holding) silent
    | _ => exact sourced.same rfl silent

theorem run (run : Run (.opened stations workers) actions events t) :
    Sourced ((State.opened stations workers).production actions) events t := by
  induction run with
  | start => exact opened stations workers
  | next before ran ih =>
    rw [production_next before]
    exact ih.step ((Stock.opened stations workers).run before) (transition_of_step ran)

end Sourced

end Kitchen.Engine
