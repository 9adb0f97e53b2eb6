import Mathlib.Data.Prod.Lex
import Ferrixd.Plugin.Host

/-! # Hook calls

A plugin is called with an event, and while it runs it calls its host.  When it traps, what it has queued is dropped;
what it has written to its store and what it has used of its allowance is not. -/

namespace Ferrixd.Plugin

inductive Hook where
  | message
  | messageV2
  | join
  | nick
  | topic
  | part
  | kick
  | mode
  | invite
  | privateMessage
  | connect
  | quit
  | away
  | account
  | timer
  | load
  deriving DecidableEq

/-- Whether the host ignores what the hook returns. -/
def Hook.isObserve : Hook → Bool
  | .connect | .quit | .away | .account | .timer | .load => true
  | _ => false

inductive Verdict where
  | allow
  | block
  deriving DecidableEq

/-- One loaded plugin. -/
structure PluginInstance where
  host : HostState
  hooks : List Hook
  calls : UInt64 := 0
  blocks : UInt64 := 0
  traps : UInt64 := 0

/-- Calls of the host API, and when they are made. -/
abbrev Trace := List (UInt64 × HostCall)

/-- What a plugin and its runtime do in one hook call. -/
structure Execution where
  refuels : Bool
  /-- The calls made while the plugin allocates, and whether it returns from that or traps. -/
  allocating : Trace
  allocated : Bool
  /-- The event could be written to the memory of the plugin. -/
  written : Bool
  /-- The calls made by the hook, and what it returns if it does not trap. -/
  running : Trace
  returned : Option Int32
  /-- When a flush is attempted, and whether the file system lets it. -/
  flushMs : UInt64
  flushed : Bool

/-- The calls that are made. -/
def Execution.trace (run : Execution) : Trace :=
  if run.allocated then run.allocating ++ run.running else run.allocating

def HostState.serveAll (host : HostState) (trace : Trace) : HostState :=
  trace.foldl (fun host call => (host.serve call.1 call.2).1) host

/-- The state in which a hook call begins. -/
def HostState.begun (host : HostState) (allowReplace : Bool) : HostState :=
  { host with call := { allowReplace } }

/-- The longest event that a plugin can be given. -/
def maxEventBytes : Nat := 2147483647

namespace PluginInstance

/-- Call one hook with an event. -/
def call (plugin : PluginInstance) (hook : Hook) (text : String) (allowReplace : Bool) (run : Execution) :
    PluginInstance × Verdict × CallScratch :=
  if hook ∉ plugin.hooks then (plugin, .allow, {})
  else
    let plugin := { plugin with calls := plugin.calls + 1, host := plugin.host.begun allowReplace }
    if !run.refuels || maxEventBytes < text.utf8ByteSize then (plugin, .allow, {})
    else
      let plugin := { plugin with host := plugin.host.serveAll run.allocating }
      if !run.allocated then ({ plugin with traps := plugin.traps + 1 }, .allow, {})
      else if !run.written then (plugin, .allow, {})
      else
        let plugin := { plugin with host := plugin.host.serveAll run.running }
        let (plugin, verdict) : PluginInstance × Verdict :=
          match run.returned with
          | some code =>
            if code = 0 || hook.isObserve then (plugin, .allow)
            else ({ plugin with blocks := plugin.blocks + 1 }, .block)
          | none => ({ plugin with traps := plugin.traps + 1, host := { plugin.host with call := {} } }, .allow)
        -- only a call that came to its end, or trapped in the hook, flushes
        let kv := plugin.host.kv.flushIfDue run.flushMs run.flushed
        ({ plugin with host := { plugin.host with call := {}, kv } }, verdict, plugin.host.call)

/-- The plugin is run, and it traps. -/
structure Trapped (plugin : PluginInstance) (hook : Hook) (text : String) (run : Execution) : Prop where
  exported : hook ∈ plugin.hooks
  refuels : run.refuels = true
  short : text.utf8ByteSize ≤ maxEventBytes
  traps : run.allocated = false ∨ run.written = true ∧ run.returned = none

end PluginInstance

/-! ## The store -/

/-- What a call writes to the store. -/
def HostCall.writes : HostCall → List (String × Bytes)
  | .kvSet key value => [(key, value)]
  | _ => []

/-- What is written to the store, accepted or not. -/
def Trace.writes (trace : Trace) : List (String × Bytes) :=
  trace.flatMap fun call => call.2.writes

namespace HostState

variable {host : HostState} {now : UInt64} {call : HostCall}

theorem act_kv (request : Request) : (host.act now request).1.kv = host.kv := by
  by_cases granted : host.allows request = true ∧ host.hasSlot now
  · rw [act_granted granted.1 granted.2]
    rfl
  · rw [act_refused granted]

theorem serve_kv : (host.serve now call).1.kv = host.kv.setAll call.writes := by
  cases call with
  | setText text =>
    simp only [serve, setText]
    split <;> rfl
  | setReason text =>
    simp only [serve, setReason]
    split <;> rfl
  | kvSet key value => rfl
  | _ => exact act_kv _

theorem serveAll_kv (trace : Trace) : (host.serveAll trace).kv = host.kv.setAll trace.writes := by
  induction trace generalizing host with
  | nil => rfl
  | cons call trace ih =>
    change ((host.serve call.1 call.2).1.serveAll trace).kv = host.kv.setAll (call.2.writes ++ Trace.writes trace)
    rw [ih, serve_kv, KvStore.setAll_append]

/-! ## The allowance -/

/-- What a plugin has used of its allowance: it only grows. -/
def allowance (host : HostState) : Lex (Nat × Nat) :=
  toLex (host.windowStartMs.toNat, host.windowActions.toNat)

/-- The call asks for an action and gets it. -/
def Grants (host : HostState) (now : UInt64) (call : HostCall) : Prop :=
  ∃ request, host.request? call = some request ∧ host.allows request = true ∧ host.hasSlot now

/-- A call that is granted nothing leaves what decides about calls as it is. -/
structure SameGrants (before after : HostState) : Prop extends SameBudgets before after where
  name : after.name = before.name

theorem serve_idle (idle : ¬ host.Grants now call) : SameGrants host (host.serve now call).1 := by
  cases asked : host.request? call with
  | some request =>
    have refused : ¬ (host.allows request = true ∧ host.hasSlot now) := fun granted => idle ⟨request, asked, granted⟩
    rw [serve_request asked, act_refused refused]
    exact ⟨.rfl, rfl⟩
  | none =>
    refine ⟨serve_other asked, ?_⟩
    cases call with
    | setText text =>
      simp only [serve, setText]
      split <;> rfl
    | setReason text =>
      simp only [serve, setReason]
      split <;> rfl
    | kvSet key value => rfl
    | _ => cases asked

theorem SameGrants.grants_iff {after : HostState} (same : SameGrants host after) (now : UInt64) (call : HostCall) :
    after.Grants now call ↔ host.Grants now call := by
  obtain ⟨⟨caps, start, actions, queued⟩, name⟩ := same
  have asks : after.request? call = host.request? call := by
    cases call <;> simp only [request?, sendNotice, sendMessage, kick, setMode, setTopic, kline, name]
  simp only [Grants, asks, allows, hasSlot, windowEnded, caps, start, actions, queued]

theorem allowance_granted (granted : host.Grants now call) :
    host.allowance < (host.serve now call).1.allowance := by
  obtain ⟨request, asked, allowed, free⟩ := granted
  rw [serve_request asked, act_granted allowed free, allowance, allowance, Prod.Lex.toLex_lt_toLex, queued]
  by_cases ended : host.windowEnded now = true
  · -- a new window starts later
    have passed : 60000 ≤ now.toNat - host.windowStartMs.toNat := decide_eq_true_iff.mp ended
    simp only [if_pos ended]
    exact .inl (by omega)
  · -- the same window counts one more
    have room : host.windowActions.toNat < maxActionsPerMinute.toNat := UInt32.lt_iff_toNat_lt.mp (free.2.resolve_left ended)
    simp only [if_neg ended]
    refine .inr ⟨trivial, ?_⟩
    have small : maxActionsPerMinute.toNat = 120 := rfl
    rw [UInt32.toNat_add, Nat.mod_eq_of_lt]
    · exact Nat.lt_succ_self _
    · change host.windowActions.toNat + 1 < 2 ^ 32
      omega

theorem SameGrants.allowance {after : HostState} (same : SameGrants host after) : after.allowance = host.allowance := by
  rw [HostState.allowance, same.windowStartMs, same.windowActions, HostState.allowance]

theorem allowance_le_serve : host.allowance ≤ (host.serve now call).1.allowance := by
  by_cases granted : host.Grants now call
  · exact (allowance_granted granted).le
  · exact (serve_idle granted).allowance.ge

theorem allowance_le_serveAll (trace : Trace) : host.allowance ≤ (host.serveAll trace).allowance := by
  induction trace generalizing host with
  | nil => exact le_refl _
  | cons call trace ih => exact allowance_le_serve.trans ih

/-- The allowance is untouched exactly if none of the calls is granted anything in the state before them all. -/
theorem allowance_serveAll_iff (trace : Trace) :
    (host.serveAll trace).allowance = host.allowance ↔ ∀ call ∈ trace, ¬ host.Grants call.1 call.2 := by
  induction trace generalizing host with
  | nil => exact iff_of_true rfl fun _ member => absurd member List.not_mem_nil
  | cons call trace ih =>
    change ((host.serve call.1 call.2).1.serveAll trace).allowance = _ ↔ _
    rw [List.forall_mem_cons]
    by_cases granted : host.Grants call.1 call.2
    · have used := (allowance_granted granted).trans_le (allowance_le_serveAll trace)
      exact iff_of_false used.ne' fun none => none.1 granted
    · have same := serve_idle granted
      rw [← same.allowance, ih]
      simp only [same.grants_iff, granted, not_false_eq_true, true_and]

end HostState

/-! ## A trapped call -/

namespace PluginInstance

/-- The store holds what it held, and as much is left of the allowance. -/
structure SameState (before after : HostState) : Prop where
  holds : ∀ key, after.kv.map.lookup key = before.kv.map.lookup key
  total : after.kv.total = before.kv.total
  windowStartMs : after.windowStartMs = before.windowStartMs
  windowActions : after.windowActions = before.windowActions

/-- The event is allowed, nothing reaches the server, and only the counters of calls and traps change. -/
structure NoEffect (plugin : PluginInstance) (result : PluginInstance × Verdict × CallScratch) : Prop where
  verdict : result.2.1 = .allow
  scratch : result.2.2 = {}
  hooks : result.1.hooks = plugin.hooks
  calls : result.1.calls = plugin.calls + 1
  traps : result.1.traps = plugin.traps + 1
  blocks : result.1.blocks = plugin.blocks
  state : SameState plugin.host result.1.host

/-- The accepted writes leave every key with what it held, and no action is granted. -/
def Harmless (plugin : PluginInstance) (allowReplace : Bool) (run : Execution) : Prop :=
  plugin.host.kv.Restores run.trace.writes ∧
    ∀ call ∈ run.trace, ¬ (plugin.host.begun allowReplace).Grants call.1 call.2

variable {plugin : PluginInstance} {hook : Hook} {text : String} {allowReplace : Bool} {run : Execution}

/-- Whatever the plugin called before it trapped, only the trap and the state of its host are left of it. -/
theorem call_trapped (trapped : plugin.Trapped hook text run) :
    ∃ host, plugin.call hook text allowReplace run =
        ({ plugin with calls := plugin.calls + 1, traps := plugin.traps + 1, host }, .allow, {}) ∧
      host.allowance = ((plugin.host.begun allowReplace).serveAll run.trace).allowance ∧
      host.kv.map = ((plugin.host.begun allowReplace).serveAll run.trace).kv.map ∧
      host.kv.total = ((plugin.host.begun allowReplace).serveAll run.trace).kv.total := by
  obtain ⟨exported, refuels, short, traps⟩ := trapped
  have gate : ¬ (!run.refuels || maxEventBytes < text.utf8ByteSize) = true := by
    simp [refuels, short]
  rw [call, if_neg (not_not.mpr exported)]
  simp only [if_neg gate]
  -- a trap in the allocator ends the call before the hook itself runs
  cases allocated : run.allocated with
  | false =>
    rw [Bool.not_false, if_pos rfl, Execution.trace, allocated]
    exact ⟨_, rfl, rfl, rfl, rfl⟩
  | true =>
    obtain ⟨written, returned⟩ := traps.resolve_left (by rw [allocated]; exact Bool.noConfusion)
    have whole : (plugin.host.begun allowReplace).serveAll run.trace =
        ((plugin.host.begun allowReplace).serveAll run.allocating).serveAll run.running := by
      rw [Execution.trace, allocated, if_pos rfl]
      exact List.foldl_append
    simp only [Bool.not_true, Bool.false_eq_true, if_false, written, returned, whole]
    refine ⟨_, rfl, rfl, ?_, ?_⟩
    · simp only [KvStore.flushIfDue]
      split <;> rfl
    · simp only [KvStore.flushIfDue]
      split <;> rfl

/-- A call that traps has no effect exactly if it was harmless. -/
theorem noEffect_iff (sound : plugin.host.kv.Sound) (trapped : plugin.Trapped hook text run) :
    plugin.NoEffect (plugin.call hook text allowReplace run) ↔ plugin.Harmless allowReplace run := by
  obtain ⟨host, called, allowance, map, total⟩ := @call_trapped plugin hook text allowReplace run trapped
  have kv := @HostState.serveAll_kv (plugin.host.begun allowReplace) run.trace
  rw [kv] at map total
  change host.kv.map = (plugin.host.kv.setAll run.trace.writes).map at map
  change host.kv.total = (plugin.host.kv.setAll run.trace.writes).total at total
  rw [called, Harmless, ← KvStore.setAll_same_iff, ← HostState.allowance_serveAll_iff, ← allowance]
  constructor
  · rintro ⟨-, -, -, -, -, -, holds, -, windowStartMs, windowActions⟩
    refine ⟨fun key => ?_, ?_⟩
    · rw [← map]
      exact holds key
    · change toLex (host.windowStartMs.toNat, host.windowActions.toNat) = _
      rw [windowStartMs, windowActions]
      rfl
  · rintro ⟨holds, unused⟩
    have used := Prod.mk.inj (toLex.injective unused)
    refine ⟨rfl, rfl, rfl, rfl, rfl, rfl, fun key => ?_, ?_, UInt64.toNat_inj.mp used.1, UInt32.toNat_inj.mp used.2⟩
    · rw [map]
      exact holds key
    · rw [total]
      exact sound.total_congr (sound.setAll _) holds

/-- A plugin that may set topics and is called when somebody joins. -/
def doorman : PluginInstance where
  host :=
    { name := "doorman", caps := [.topic], kv := ⟨∅, 0, none, false, 0⟩, windowStartMs := 0, windowActions := 0
      call := {} }
  hooks := [.join]

/-- The hook makes some calls and traps. -/
def trapAfter (calls : Trace) : Execution where
  refuels := true
  allocating := []
  allocated := true
  written := true
  running := calls
  returned := none
  flushMs := 0
  flushed := true

theorem doorman_trapped (calls : Trace) : doorman.Trapped .join "{}" (trapAfter calls) :=
  ⟨by decide, rfl, by decide, .inr ⟨rfl, rfl⟩⟩

theorem doorman_sound : doorman.host.kv.Sound :=
  ⟨rfl, fun key value found => by cases found⟩

/-- A kick that is not allowed and a key that is deleted without being there are harmless. -/
theorem noEffect_iff_kick :
    doorman.NoEffect (doorman.call .join "{}" false (trapAfter [(5, .kick "#den" "bob" ""), (5, .kvSet "seen" [])])) ↔
      doorman.Harmless false (trapAfter [(5, .kick "#den" "bob" ""), (5, .kvSet "seen" [])]) :=
  noEffect_iff doorman_sound (doorman_trapped _)

/-- The store keeps what a trapped call has written. -/
theorem trapped_write_stays :
    ¬ ∀ (plugin : PluginInstance) (hook : Hook) (text : String) (allowReplace : Bool) (run : Execution),
      plugin.host.kv.Sound → plugin.Trapped hook text run →
        plugin.NoEffect (plugin.call hook text allowReplace run) := by
  intro claimed
  have same := (claimed doorman .join "{}" false (trapAfter [(5, .kvSet "seen" [1])]) doorman_sound
    (doorman_trapped _)).state.holds "seen"
  exact absurd same (by decide +kernel)

end PluginInstance

end Ferrixd.Plugin
