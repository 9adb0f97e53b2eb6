import Ferrixd.Data.Machine
import Ferrixd.Data.Rate
import Ferrixd.Plugin.Host

/-! # The action budgets of a plugin

A hook call queues at most 4 actions.  The count of a minute starts anew when a minute has passed since it
started, so that actions late in one minute and early in the next are not counted together. -/

namespace Ferrixd.Plugin

/-- The state of a plugin, when the clock was read last and when its actions were queued: before the window that
was closed last, in that window, and in the open one. -/
structure Metered where
  host : HostState
  clock : UInt64
  older : List Nat := []
  closed : List Nat := []
  current : List Nat := []
  /-- The actions queued in the hook call. -/
  inCall : Nat := 0

namespace Metered

/-- A hook call begins, or the plugin calls its host. -/
inductive Event where
  | hook (allowReplace : Bool)
  | host (now : UInt64) (call : HostCall)

/-- The call asks for an action and gets it. -/
def Queues (s : Metered) (now : UInt64) (call : HostCall) : Prop :=
  (∃ request, s.host.request? call = some request ∧ s.host.allows request = true) ∧ s.host.hasSlot now

def hook (s : Metered) (allowReplace : Bool) : Metered :=
  { s with host := { s.host with call := { allowReplace } }, inCall := 0 }

/-- Whether the server has queued one more action. -/
def serve (s : Metered) (now : UInt64) (call : HostCall) : Metered :=
  let host := (s.host.serve now call).1
  if host.call.actions.length = s.host.call.actions.length then { s with host, clock := now }
  else if s.host.windowEnded now then
    { s with
      host, clock := now, older := s.older ++ s.closed, closed := s.current, current := [now.toNat]
      inCall := s.inCall + 1 }
  else { s with host, clock := now, current := s.current ++ [now.toNat], inCall := s.inCall + 1 }

/-- Time does not run backwards. -/
inductive Step : Metered → Event → Metered → Prop where
  | hook {s : Metered} (allowReplace : Bool) : Step s (.hook allowReplace) (s.hook allowReplace)
  | host {s : Metered} (now : UInt64) (call : HostCall) (later : s.clock ≤ now) :
      Step s (.host now call) (s.serve now call)

/-- A plugin that has been loaded. -/
structure Loaded (s : Metered) : Prop where
  opened : s.host.windowStartMs = s.clock
  unused : s.host.windowActions = 0
  silent : s.host.call.actions = []
  logs : s.older = [] ∧ s.closed = [] ∧ s.current = [] ∧ s.inCall = 0

def machine : Machine Metered Event where
  start := Loaded
  step := Step

/-- All actions, in the order they were queued. -/
def log (s : Metered) : List Nat :=
  s.older ++ s.closed ++ s.current

/-- At most 120 actions in every minute. -/
def Limited (s : Metered) : Prop :=
  Rate.Within 60000 120 s.log

/-- The window that is closed, or that the next action closes, still has so many actions less than a minute old
that the next action is one too many. -/
def CarriesOver (s : Metered) (now : UInt64) : Prop :=
  if s.host.windowEnded now then 120 ≤ Rate.recent 60000 now.toNat s.current
  else 120 ≤ Rate.recent 60000 now.toNat s.closed + s.current.length

/-- No action is queued while too much carries over. -/
def Guarded (s : Metered) : Event → Prop
  | .hook _ => True
  | .host now call => s.Queues now call → ¬ s.CarriesOver now

/-! ## What a call does -/

variable {s : Metered} {now : UInt64} {call : HostCall}

theorem serve_idle (idle : ¬ s.Queues now call) :
    ∃ host, s.serve now call = { s with host, clock := now } ∧ s.host.SameBudgets host := by
  have same : s.host.SameBudgets (s.host.serve now call).1 := by
    cases asked : s.host.request? call with
    | none => exact HostState.serve_other asked
    | some request =>
      rw [HostState.serve_request asked,
        HostState.act_refused fun granted => idle ⟨⟨request, asked, granted.1⟩, granted.2⟩]
      exact .rfl
  exact ⟨_, if_pos (congrArg List.length same.actions), same⟩

theorem serve_queues (queues : s.Queues now call) : ∃ action,
    s.serve now call =
      if s.host.windowEnded now then
        { s with
          host := s.host.queued now action, clock := now, older := s.older ++ s.closed, closed := s.current
          current := [now.toNat], inCall := s.inCall + 1 }
      else
        { s with
          host := s.host.queued now action, clock := now, current := s.current ++ [now.toNat]
          inCall := s.inCall + 1 } := by
  obtain ⟨⟨request, asked, allowed⟩, free⟩ := queues
  refine ⟨request.action, ?_⟩
  rw [serve, HostState.serve_request asked, HostState.act_granted allowed free]
  have grown : (s.host.queued now request.action).call.actions.length ≠ s.host.call.actions.length := by
    simp [HostState.queued]
  rw [if_neg grown]

/-! ## The windows -/

/-- The window is counted right, and the windows before it ended in time. -/
structure Windowed (s : Metered) : Prop where
  count : s.host.windowActions.toNat = s.current.length
  begun : s.host.windowStartMs ≤ s.clock
  current : ∀ time ∈ s.current,
    s.host.windowStartMs.toNat ≤ time ∧ time ≤ s.clock.toNat ∧ time < s.host.windowStartMs.toNat + 60000
  closed : ∀ time ∈ s.closed, time ≤ s.host.windowStartMs.toNat
  older : ∀ time ∈ s.older, time + 60000 ≤ s.host.windowStartMs.toNat
  perCall : s.inCall = s.host.call.actions.length ∧ s.inCall ≤ maxActionsPerCall
  few : s.current.length ≤ 120

theorem Loaded.windowed (loaded : Loaded s) : s.Windowed := by
  obtain ⟨older, closed, current, inCall⟩ := loaded.logs
  constructor
  · rw [loaded.unused, current]
    rfl
  · rw [loaded.opened]
    exact UInt64.le_refl _
  · rw [current]
    nofun
  · rw [closed]
    nofun
  · rw [older]
    nofun
  · rw [inCall, loaded.silent]
    exact ⟨rfl, Nat.zero_le _⟩
  · rw [current]
    exact Nat.zero_le _

theorem windowEnded_iff (host : HostState) (now : UInt64) :
    host.windowEnded now = true ↔ 60000 ≤ now.toNat - host.windowStartMs.toNat :=
  decide_eq_true_iff

/-- A call that queues nothing lets only time pass. -/
theorem Windowed.idle (windowed : s.Windowed) (later : s.clock ≤ now) {host : HostState}
    (same : s.host.SameBudgets host) : Windowed { s with host, clock := now } := by
  have clock : s.clock.toNat ≤ now.toNat := UInt64.le_iff_toNat_le.mp later
  constructor
  · exact (congrArg UInt32.toNat same.windowActions).trans windowed.count
  · change host.windowStartMs ≤ now
    rw [same.windowStartMs]
    exact UInt64.le_trans windowed.begun later
  · intro time member
    change host.windowStartMs.toNat ≤ time ∧ time ≤ now.toNat ∧ time < host.windowStartMs.toNat + 60000
    rw [same.windowStartMs]
    have inWindow := windowed.current time member
    omega
  · intro time member
    change time ≤ host.windowStartMs.toNat
    rw [same.windowStartMs]
    exact windowed.closed time member
  · intro time member
    change time + 60000 ≤ host.windowStartMs.toNat
    rw [same.windowStartMs]
    exact windowed.older time member
  · change s.inCall = host.call.actions.length ∧ s.inCall ≤ maxActionsPerCall
    rw [same.actions]
    exact windowed.perCall
  · exact windowed.few

/-- One more action is one more of its call. -/
theorem Windowed.one_more (windowed : s.Windowed) (room : s.host.call.actions.length < maxActionsPerCall)
    (action : Action) :
    s.inCall + 1 = (s.host.queued now action).call.actions.length ∧ s.inCall + 1 ≤ maxActionsPerCall := by
  rw [HostState.queued, List.length_append, windowed.perCall.1]
  exact ⟨rfl, room⟩

/-- The action opens a window, and the one before it is closed. -/
theorem Windowed.reopened (windowed : s.Windowed) (later : s.clock ≤ now)
    (room : s.host.call.actions.length < maxActionsPerCall) (ended : s.host.windowEnded now = true) (action : Action) :
    Windowed
      { s with
        host := s.host.queued now action, clock := now, older := s.older ++ s.closed, closed := s.current
        current := [now.toNat], inCall := s.inCall + 1 } := by
  have clock : s.clock.toNat ≤ now.toNat := UInt64.le_iff_toNat_le.mp later
  have begun : s.host.windowStartMs.toNat ≤ s.clock.toNat := UInt64.le_iff_toNat_le.mp windowed.begun
  -- the window that ended is closed, and the one closed before is now older
  have passed := (windowEnded_iff _ _).mp ended
  refine ⟨?_, ?_, ?_, ?_, ?_, windowed.one_more room action, (by decide : 1 ≤ 120)⟩
  · simp only [HostState.queued, if_pos ended]
    rfl
  · simp only [HostState.queued, if_pos ended]
    exact UInt64.le_refl _
  · simp only [HostState.queued, if_pos ended, List.mem_singleton]
    intro time same
    omega
  · simp only [HostState.queued, if_pos ended]
    intro time member
    have before := windowed.current time member
    omega
  · -- what was closed before is older than the window that is closed now
    simp only [HostState.queued, if_pos ended, List.mem_append]
    intro time member
    rcases member with older | closed
    · have before := windowed.older time older
      omega
    · have before := windowed.closed time closed
      omega

/-- The action is counted in the window that is open. -/
theorem Windowed.counted (windowed : s.Windowed) (later : s.clock ≤ now)
    (room : s.host.call.actions.length < maxActionsPerCall) (ended : ¬ s.host.windowEnded now = true)
    (below : s.host.windowActions < 120) (action : Action) :
    Windowed
      { s with
        host := s.host.queued now action, clock := now, current := s.current ++ [now.toNat]
        inCall := s.inCall + 1 } := by
  have clock : s.clock.toNat ≤ now.toNat := UInt64.le_iff_toNat_le.mp later
  have begun : s.host.windowStartMs.toNat ≤ s.clock.toNat := UInt64.le_iff_toNat_le.mp windowed.begun
  have running := mt (windowEnded_iff _ _).mpr ended
  have count : s.host.windowActions.toNat < 120 := UInt32.lt_iff_toNat_lt.mp below
  have counted := windowed.count
  refine ⟨?_, ?_, ?_, ?_, ?_, windowed.one_more room action, ?_⟩
  · simp only [HostState.queued, if_neg ended, List.length_append, List.length_singleton]
    -- the count does not wrap around, as it is below 120
    rw [UInt32.toNat_add, counted, Nat.mod_eq_of_lt]
    · rfl
    · rw [← counted]
      exact Nat.lt_of_lt_of_le (Nat.succ_lt_succ count) (by decide)
  · simp only [HostState.queued, if_neg ended]
    exact UInt64.le_trans windowed.begun later
  · simp only [HostState.queued, if_neg ended, List.mem_append, List.mem_singleton]
    intro time member
    rcases member with earlier | same
    · have before := windowed.current time earlier
      omega
    · omega
  · simp only [HostState.queued, if_neg ended]
    exact windowed.closed
  · simp only [HostState.queued, if_neg ended]
    exact windowed.older
  · rw [List.length_append, List.length_singleton]
    omega

theorem Windowed.serve (windowed : s.Windowed) (later : s.clock ≤ now) (call : HostCall) :
    (s.serve now call).Windowed := by
  by_cases queues : s.Queues now call
  · obtain ⟨action, served⟩ := serve_queues queues
    have room := queues.2.1
    rw [served]
    by_cases ended : s.host.windowEnded now = true
    · rw [if_pos ended]
      exact windowed.reopened later room ended action
    · rw [if_neg ended]
      exact windowed.counted later room ended (queues.2.2.resolve_left ended) action
  · obtain ⟨host, served, same⟩ := serve_idle queues
    rw [served]
    exact windowed.idle later same

theorem Windowed.step {event : Event} {next : Metered} (windowed : s.Windowed) (step : Step s event next) :
    next.Windowed := by
  cases step with
  | hook allowReplace => exact ⟨windowed.count, windowed.begun, windowed.current, windowed.closed, windowed.older,
      ⟨rfl, Nat.zero_le _⟩, windowed.few⟩
  | host now call later => exact windowed.serve later call

/-! ## Rates -/

/-- Only what carries over and what the open window has is less than a minute old. -/
theorem Windowed.recent_log (windowed : s.Windowed) (later : s.clock ≤ now) :
    Rate.recent 60000 now.toNat s.log =
      if s.host.windowEnded now then Rate.recent 60000 now.toNat s.current
      else Rate.recent 60000 now.toNat s.closed + s.current.length := by
  have clock : s.clock.toNat ≤ now.toNat := UInt64.le_iff_toNat_le.mp later
  have begun : s.host.windowStartMs.toNat ≤ s.clock.toNat := UInt64.le_iff_toNat_le.mp windowed.begun
  -- older windows ended more than a minute ago, the current one began within it
  have older : Rate.recent 60000 now.toNat s.older = 0 := by
    refine Rate.recent_eq_zero fun time member => ?_
    have before := windowed.older time member
    omega
  rw [log, Rate.recent_append, Rate.recent_append, older, Nat.zero_add]
  split
  · rename_i ended
    have passed := (windowEnded_iff _ _).mp ended
    have closed : Rate.recent 60000 now.toNat s.closed = 0 := by
      refine Rate.recent_eq_zero fun time member => ?_
      have before := windowed.closed time member
      omega
    rw [closed, Nat.zero_add]
  · rename_i running
    have young := mt (windowEnded_iff _ _).mpr running
    have current : Rate.recent 60000 now.toNat s.current = s.current.length := by
      refine Rate.recent_eq_length fun time member => ?_
      have inWindow := windowed.current time member
      omega
    rw [current]

theorem Windowed.past (windowed : s.Windowed) (later : s.clock ≤ now) : ∀ time ∈ s.log, time ≤ now.toNat := by
  have clock : s.clock.toNat ≤ now.toNat := UInt64.le_iff_toNat_le.mp later
  have begun : s.host.windowStartMs.toNat ≤ s.clock.toNat := UInt64.le_iff_toNat_le.mp windowed.begun
  intro time member
  rw [log, List.mem_append, List.mem_append] at member
  rcases member with (older | closed) | current
  · have before := windowed.older time older
    omega
  · have before := windowed.closed time closed
    omega
  · have before := windowed.current time current
    omega

theorem log_serve (queues : s.Queues now call) : (s.serve now call).log = s.log ++ [now.toNat] := by
  obtain ⟨action, served⟩ := serve_queues queues
  rw [served]
  split
  · rfl
  · simp only [log, List.append_assoc]

theorem log_idle (idle : ¬ s.Queues now call) : (s.serve now call).log = s.log := by
  obtain ⟨host, served, -⟩ := serve_idle idle
  rw [served]
  rfl

/-- A step keeps to the limit exactly if it queues nothing while too much carries over. -/
theorem Limited.step_iff {event : Event} {next : Metered} (limited : s.Limited) (windowed : s.Windowed)
    (step : Step s event next) : next.Limited ↔ s.Guarded event := by
  cases step with
  | hook allowReplace => exact iff_of_true limited trivial
  | host now call later =>
    by_cases queues : s.Queues now call
    · rw [Limited, log_serve queues, limited.concat_iff (windowed.past later) (by decide),
        windowed.recent_log later, Guarded, CarriesOver]
      split
      · exact ⟨fun few _ many => Nat.not_le_of_lt few many, fun guarded => Nat.lt_of_not_le (guarded queues)⟩
      · exact ⟨fun few _ many => Nat.not_le_of_lt few many, fun guarded => Nat.lt_of_not_le (guarded queues)⟩
    · rw [Limited, log_idle queues]
      exact iff_of_true limited fun other => absurd other queues

theorem Loaded.limited (loaded : Loaded s) : s.Limited := by
  obtain ⟨older, closed, current, -⟩ := loaded.logs
  rw [Limited, log, older, closed, current]
  exact Rate.Within.nil

/-- In every run no hook call queues more than 4 actions.  In every run in which no action is queued while too
much carries over, no minute has more than 120, and the next step keeps to that exactly if it does so too. -/
theorem runs_limited (s : Metered) :
    (machine.Reachable s → s.inCall ≤ maxActionsPerCall) ∧
      (machine.GuardedRun Guarded s → s.Limited ∧
        ∀ event next, machine.step s event next → (next.Limited ↔ s.Guarded event)) := by
  constructor
  · intro run
    have windowed : s.Windowed := run.invariant (I := Windowed) (fun _ => Loaded.windowed)
      fun _ _ _ windowed _ taken => windowed.step taken
    exact windowed.perCall.2
  · intro run
    have kept : s.Windowed ∧ s.Limited := by
      refine run.invariant (I := fun s => s.Windowed ∧ s.Limited) ?_ ?_
      · exact fun _ loaded => ⟨Loaded.windowed loaded, Loaded.limited loaded⟩
      · exact fun _ _ _ holds guarded taken =>
          ⟨holds.1.step taken, (Limited.step_iff holds.2 holds.1 taken).mpr guarded⟩
    exact ⟨kept.2, fun _ _ => Limited.step_iff kept.2 kept.1⟩

/-! ## Across two windows -/

def apply (s : Metered) : Event → Metered
  | .hook allowReplace => s.hook allowReplace
  | .host now call => s.serve now call

/-- The times of some events are in order. -/
def timely (clock : UInt64) : List Event → Bool
  | [] => true
  | .hook _ :: rest => timely clock rest
  | .host now _ :: rest => clock ≤ now && timely now rest

theorem clock_serve (s : Metered) (now : UInt64) (call : HostCall) : (s.serve now call).clock = now := by
  rw [serve]
  split
  · rfl
  · split <;> rfl

theorem reachable_foldl {events : List Event} (run : machine.Reachable s) (inOrder : timely s.clock events = true) :
    machine.Reachable (events.foldl apply s) := by
  induction events generalizing s with
  | nil => exact run
  | cons event rest ih =>
    cases event with
    | hook allowReplace => exact ih (.step (e := .hook allowReplace) run trivial (.hook allowReplace)) inOrder
    | host now call =>
      rw [timely, Bool.and_eq_true, decide_eq_true_iff] at inOrder
      refine ih (.step (e := .host now call) run trivial (.host now call inOrder.1)) ?_
      rw [apply, clock_serve]
      exact inOrder.2

/-- A plugin that may set topics, loaded at 0. -/
def topical : Metered where
  host :=
    { name := "topical", caps := [.topic], kv := ⟨∅, 0, none, false, 0⟩, windowStartMs := 0, windowActions := 0
      call := {} }
  clock := 0

/-- Topics that are cleared in one hook call. -/
def clearTopics (now : UInt64) (count : Nat) : List Event :=
  .hook false :: List.replicate count (.host now (.setTopic "#a" ""))

/-- Thirty hook calls at the end of the first minute, and one action right after it. -/
def straddle : List Event :=
  (List.replicate 30 (clearTopics 59999 4)).flatten ++ clearTopics 60000 1

theorem topical_loaded : Loaded topical :=
  ⟨rfl, rfl, rfl, rfl, rfl, rfl, rfl⟩

theorem straddle_exceeds :
    timely topical.clock straddle = true ∧ Rate.inSpan 60000 1 (straddle.foldl apply topical).log = 121 := by
  decide +kernel

theorem runs_limited_topical :
    ((clearTopics 5 5).foldl apply topical).inCall ≤ maxActionsPerCall ∧ topical.Limited ∧
      ((topical.hook true).Limited ↔ topical.Guarded (.hook true)) := by
  have busy : machine.Reachable ((clearTopics 5 5).foldl apply topical) :=
    reachable_foldl (.start topical_loaded) (by decide)
  obtain ⟨limited, next⟩ := (runs_limited topical).2 (.start topical_loaded)
  exact ⟨(runs_limited _).1 busy, limited, next (.hook true) _ (.hook true)⟩

/-- 120 actions one millisecond before the minute is over, and one more after it. -/
theorem minute_exceeded : ¬ ∀ s, machine.Reachable s → s.Limited := by
  intro limited
  obtain ⟨inOrder, many⟩ := straddle_exceeds
  have few := limited _ (reachable_foldl (.start topical_loaded) inOrder) 1
  rw [many] at few
  exact absurd few (by decide)

end Metered

end Ferrixd.Plugin
