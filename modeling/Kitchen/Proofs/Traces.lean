import Kitchen.Engine.Step

namespace Kitchen.Engine

variable {s t : State} {action : Action} {actions : List Action} {events more : List Event}

def State.play (s : State) : List Action → Option (State × List Event)
  | [] => some (s, [])
  | action :: rest =>
    match s.step action with
    | none => none
    | some (t, events) => (t.play rest).map fun (last, more) => (last, events ++ more)

-- What `f` says of each step of a run that begins at `s`.
def along (f : State → Action → List α) (s : State) : List Action → List α
  | [] => []
  | action :: rest =>
    f s action ++
      match s.step action with
      | some (t, _) => along f t rest
      | none => []

theorem play_append (s : State) (xs ys : List Action) : s.play (xs ++ ys) =
    (s.play xs).bind fun (m, events) => (m.play ys).map fun (t, more) => (t, events ++ more) := by
  induction xs generalizing s with
  | nil =>
    simp only [List.nil_append, State.play, Option.bind_some]
    cases s.play ys <;> rfl
  | cons action rest ih =>
    simp only [List.cons_append, State.play]
    cases s.step action with
    | none => rfl
    | some made =>
      obtain ⟨m, events⟩ := made
      simp only [ih]
      cases m.play rest with
      | none => rfl
      | some made =>
        obtain ⟨n, more⟩ := made
        simp only [Option.bind_some, Option.map_some, Option.map_map]
        cases n.play ys <;> simp

theorem Run.play (run : Run s actions events t) : s.play actions = some (t, events) := by
  induction run with
  | start => rfl
  | next _ ran ih =>
    rw [play_append, ih]
    simp [State.play, ran]

theorem Run.append (run : Run s actions events t) (later : Run t others more u) :
    Run s (actions ++ others) (events ++ more) u := by
  induction later with
  | start => simpa using run
  | next _ ran ih =>
    rw [← List.append_assoc, ← List.append_assoc]
    exact .next ih ran

theorem run_of_play (played : s.play actions = some (t, events)) : Run s actions events t := by
  induction actions generalizing s events with
  | nil =>
    cases played
    exact .start
  | cons action rest ih =>
    simp only [State.play] at played
    split at played
    · cases played
    next m first ran =>
      obtain ⟨⟨last, more⟩, later, same⟩ := Option.map_eq_some_iff.mp played
      cases same
      have once : Run s [action] first m := .next .start ran
      exact once.append (ih later)

theorem along_append {f : State → Action → List α} (played : s.play xs = some (m, events))
    (ys : List Action) : along f s (xs ++ ys) = along f s xs ++ along f m ys := by
  induction xs generalizing s events with
  | nil =>
    cases played
    rfl
  | cons action rest ih =>
    simp only [State.play] at played
    split at played
    · cases played
    next n first ran =>
      obtain ⟨⟨last, more⟩, later, same⟩ := Option.map_eq_some_iff.mp played
      cases same
      simp only [List.cons_append, along, ran, ih later, List.append_assoc]

theorem along_next (f : State → Action → List α) (run : Run s actions events t) (action : Action) :
    along f s (actions ++ [action]) = along f s actions ++ f t action := by
  rw [along_append run.play]
  simp only [along]
  split <;> simp

-- What is said of a run is said of one of its steps.
theorem along_split {f : State → Action → List α} {entry : α} (run : Run s actions events t)
    (said : entry ∈ along f s actions) : ∃ earlier action later shown more m n,
      actions = earlier ++ action :: later ∧ Run s earlier shown m ∧
        m.step action = some (n, more) ∧ entry ∈ f m action := by
  induction run with
  | start => cases said
  | @next _ _ _ _ _ last before ran ih =>
    rw [along_next f before] at said
    rcases List.mem_append.mp said with early | now
    · obtain ⟨earlier, action, later, shown, more, m, n, rfl, first, then', there⟩ := ih early
      exact ⟨earlier, action, later ++ [last], shown, more, m, n, by simp, first, then', there⟩
    · exact ⟨_, last, [], _, _, _, _, rfl, before, ran, now⟩

-- Where these steps lead, with what they show; nowhere if one of them is not possible.
def State.after (s : State) (actions : List Action) : State × List Event :=
  (s.play actions).getD (s, [])

theorem run_after (possible : (s.play actions).isSome = true) :
    Run s actions (s.after actions).2 (s.after actions).1 := by
  obtain ⟨made, played⟩ := Option.isSome_iff_exists.mp possible
  refine run_of_play ?_
  rw [State.after, played]
  rfl

theorem after_of_run (run : Run s actions events t) : s.after actions = (t, events) := by
  rw [State.after, run.play]
  rfl

-- A worker, one station and two orders of a burger: the first is collected, the second expires and
-- its burger goes back, then the kitchen closes. Only the answer of the call that shuts down is
-- still to come.
def closingDay : List Action :=
  [.worker 0, .runner 0, .order ["burger"] none, .order ["burger"] none] ++
    [.worker 0, .worker 0, .runner 0, .runner 0, .produced 0 (.made .burger), .runner 0, .worker 0,
      .worker 0, .collect 1 0, .worker 0, .worker 0, .client 1] ++
    [.worker 0, .worker 0, .runner 0, .runner 0, .produced 0 (.made .burger), .runner 0, .worker 0,
      .worker 0, .pickupTimeout 0, .worker 0, .returned 0 .accepted, .worker 0] ++
    [.shutdown 2, .client 2, .client 2, .client 2, .worker 0, .client 2, .client 2, .client 2,
      .client 2, .runner 0, .client 2, .client 2, .client 2]

theorem closingDay_possible : ((State.opened ["burger"] 1).play closingDay).isSome = true := by
  decide +kernel

theorem closingDay_stopping : ((State.opened ["burger"] 1).after closingDay).1.calls.get? 2 =
    some (.shutdown (.stopping [⟨[["burger"]], [["burger"]], [], []⟩] 1)) := by
  decide +kernel

theorem closingDay_last : ((State.opened ["burger"] 1).after closingDay).1.step (.client 2) = some
    (((State.opened ["burger"] 1).after (closingDay ++ [.client 2])).1,
      [.noticed (.shutdownComplete ⟨1, 1, 1, 0, 0⟩),
        .replied 2 (.reports [⟨[["burger"]], [["burger"]], [], []⟩])]) := by
  decide +kernel

end Kitchen.Engine
