import Ferrixd.Data.Machine
import Ferrixd.State.Types

/-! # Presence

MONITOR watches over the whole network.  Notifications only queue bytes for clients. -/

namespace Ferrixd

def rplMonOnline : Nat := 730

def rplMonOffline : Nat := 731

/-! ## Watch lists -/

/-- The clients that watch a folded nick. -/
def watchers (monitors : Table String (List UInt64)) (folded : String) : List UInt64 :=
  (monitors.lookup folded).getD []

/-- The watch lists without a watcher of a nick; an empty list is dropped. -/
def unwatch (id : UInt64) (monitors : Table String (List UInt64)) (folded : String) : Table String (List UInt64) :=
  match monitors.lookup folded with
  | none => monitors
  | some ids =>
    let left := ids.filter fun other => other != id
    if left.isEmpty then monitors.erase folded else monitors.insert folded left

theorem mem_watchers_insert (monitors : Table String (List UInt64)) (name folded : String) (id other : UInt64) :
    other ∈ watchers (monitors.insert name ((watchers monitors name).insert id)) folded ↔
      other ∈ watchers monitors folded ∨ (folded = name ∧ other = id) := by
  rw [watchers, Table.lookup_insert_if]
  by_cases same : folded = name
  · rw [if_pos same, same, Option.getD_some, List.mem_insert_iff]
    tauto
  · rw [if_neg same]
    simp [watchers, same]

theorem mem_watchers_unwatch (id other : UInt64) (monitors : Table String (List UInt64)) (name folded : String) :
    other ∈ watchers (unwatch id monitors name) folded ↔
      other ∈ watchers monitors folded ∧ ¬ (folded = name ∧ other = id) := by
  rw [unwatch]
  cases found : monitors.lookup name with
  | none =>
    have nobody : watchers monitors name = [] := by rw [watchers, found, Option.getD_none]
    refine ⟨fun member => ⟨member, ?_⟩, fun member => member.1⟩
    rintro ⟨rfl, -⟩
    rw [nobody] at member
    cases member
  | some ids =>
    -- the entry goes with its last watcher
    have here : watchers monitors name = ids := by rw [watchers, found, Option.getD_some]
    have filtered : other ∈ (ids.filter fun other => other != id) ↔ other ∈ ids ∧ other ≠ id := by
      rw [List.mem_filter, bne_iff_ne]
    by_cases same : folded = name
    · rw [same, here]
      dsimp only
      split
      · rename_i empty
        rw [List.isEmpty_iff] at empty
        rw [empty] at filtered
        rw [watchers, Table.lookup_erase_if, if_pos rfl, Option.getD_none, filtered]
        simp
      · rw [watchers, Table.lookup_insert_if, if_pos rfl, Option.getD_some, filtered]
        simp
    · have elsewhere : watchers (if (ids.filter fun other => other != id).isEmpty then monitors.erase name
          else monitors.insert name (ids.filter fun other => other != id)) folded = watchers monitors folded := by
        rw [watchers, watchers]
        split
        · rw [Table.lookup_erase_if, if_neg same]
        · rw [Table.lookup_insert_if, if_neg same]
      dsimp only
      rw [elsewhere]
      simp [same]

theorem mem_watchers_unwatchAll (id other : UInt64) (names : List String) (folded : String) :
    ∀ monitors, other ∈ watchers (names.foldl (unwatch id) monitors) folded ↔
      other ∈ watchers monitors folded ∧ ¬ (other = id ∧ folded ∈ names) := by
  induction names with
  | nil => simp
  | cons name rest ih =>
    intro monitors
    rw [List.foldl_cons, ih, mem_watchers_unwatch, List.mem_cons]
    tauto

/-! ## Functions that only queue or log -/

namespace Server

@[simp] theorem emit_toTables (s : Server) (change : Effects → Effects) :
    (s.emit change).toTables = s.toTables := rfl

@[simp] theorem emit_fx (s : Server) (change : Effects → Effects) :
    (s.emit change).fx = change s.fx := rfl

@[simp] theorem send_toTables (s : Server) (id : UInt64) (bytes : Bytes) :
    (s.send id bytes).toTables = s.toTables := rfl

@[simp] theorem send_frames (s : Server) (id : UInt64) (bytes : Bytes) :
    (s.send id bytes).fx.frames = s.fx.frames := rfl

@[simp] theorem sendAll_toTables (s : Server) (ids : List UInt64) (bytes : Bytes) :
    (s.sendAll ids bytes).toTables = s.toTables := rfl

@[simp] theorem sendAll_frames (s : Server) (ids : List UInt64) (bytes : Bytes) :
    (s.sendAll ids bytes).fx.frames = s.fx.frames := rfl

@[simp] theorem sendEvent_toTables (s : Server) (ids : List UInt64) (event : Event) :
    (s.sendEvent ids event).toTables = s.toTables := rfl

@[simp] theorem sendEvent_frames (s : Server) (ids : List UInt64) (event : Event) :
    (s.sendEvent ids event).fx.frames = s.fx.frames := rfl

@[simp] theorem sendToLink_toTables (s : Server) (sid : String) (message : LinkMessage) :
    (s.sendToLink sid message).toTables = s.toTables := by
  rw [sendToLink]
  split <;> rfl

theorem sendToLink_frames (s : Server) (sid : String) (message : LinkMessage) :
    (s.sendToLink sid message).fx.frames =
      s.fx.frames ++ if sid ∈ s.links then [(sid, message)] else [] := by
  rw [sendToLink]
  split <;> simp

@[simp] theorem sendTowards_toTables (s : Server) (sid : String) (message : LinkMessage) :
    (s.sendTowards sid message).toTables = s.toTables := by
  rw [sendTowards]
  split
  · exact sendToLink_toTables _ _ _
  · rfl

@[simp] theorem forwardToLinks_toTables (s : Server) (originSid : String) (message : LinkMessage) :
    (s.forwardToLinks originSid message).toTables = s.toTables := rfl

@[simp] theorem propagateToLinks_toTables (s : Server) (message : LinkMessage) :
    (s.propagateToLinks message).toTables = s.toTables := rfl

theorem propagateToLinks_frames (s : Server) (message : LinkMessage) :
    (s.propagateToLinks message).fx.frames =
      s.fx.frames ++ s.links.keys.map fun sid => (sid, message) :=
  rfl

@[simp] theorem recordWhowas_toTables (s : Server) (nick user host realname : String) :
    (s.recordWhowas nick user host realname).toTables = s.toTables := by
  rw [recordWhowas]
  split <;> rfl

@[simp] theorem recordWhowas_frames (s : Server) (nick user host realname : String) :
    (s.recordWhowas nick user host realname).fx.frames = s.fx.frames := by
  rw [recordWhowas]
  split <;> rfl

@[simp] theorem recordChannelEvent_toTables (s : Server) (folded display sourceMask : String)
    (kind : MessageKind) (text : String) :
    (s.recordChannelEvent folded display sourceMask kind text).toTables = s.toTables := rfl

@[simp] theorem recordChannelEvent_frames (s : Server) (folded display sourceMask : String)
    (kind : MessageKind) (text : String) :
    (s.recordChannelEvent folded display sourceMask kind text).fx.frames = s.fx.frames := rfl

/-! ## MONITOR -/

def monitorWatch (s : Server) (folded : String) (watcherId : UInt64) : Server :=
  let watchers := (s.monitors.lookup folded).getD []
  { s with monitors := s.monitors.insert folded (watchers.insert watcherId) }

def monitorUnwatch (s : Server) (folded : String) (watcherId : UInt64) : Server :=
  match s.monitors.lookup folded with
  | none => s
  | some watchers =>
    let left := watchers.filter fun id => id != watcherId
    if left.isEmpty then { s with monitors := s.monitors.erase folded }
    else { s with monitors := s.monitors.insert folded left }

theorem monitorUnwatch_toTables (s : Server) (folded : String) (watcherId : UInt64) :
    (s.monitorUnwatch folded watcherId).toTables =
      { s.toTables with monitors := unwatch watcherId s.monitors folded } := by
  rw [monitorUnwatch, unwatch]
  cases s.monitors.lookup folded with
  | none => rfl
  | some ids =>
    dsimp only
    split <;> rfl

theorem unwatchAll_toTables (id : UInt64) (names : List String) (s : Server) :
    (names.foldl (fun s folded => s.monitorUnwatch folded id) s).toTables =
      { s.toTables with monitors := names.foldl (unwatch id) s.monitors } := by
  induction names generalizing s with
  | nil => rfl
  | cons name rest ih => rw [List.foldl_cons, ih, List.foldl_cons, monitorUnwatch_toTables]

/-- Queue a presence numeric about these nicks. -/
def sendPresence (s : Server) (id : UInt64) (code : Nat) (nicks : List String) (payload : String) : Server :=
  let line := Line.server s.info.name |>.code code |>.param (s.entry id).nick |>.trailing payload
  (s.send id line.build).emit fun fx =>
    { fx with notices := fx.notices ++ nicks.map fun folded => ⟨id, folded, code = rplMonOnline⟩ }

/-- Tell every connected watcher of a nick that it came online or went offline. -/
def notifyMonitors (s : Server) (folded : String) (code : Nat) (payload : String) : Server :=
  match s.monitors.lookup folded with
  | none => s
  | some watchers =>
    (watchers.filter fun id => id ∈ s.byId).foldl (fun s id => s.sendPresence id code [folded] payload) s

def monitorOnline (s : Server) (nick mask : String) : Server :=
  s.notifyMonitors (s.fold nick) rplMonOnline mask

def monitorOnlineMask (s : Server) (mask : String) : Server :=
  s.monitorOnline (beforeChar mask '!') mask

def monitorOffline (s : Server) (nick : String) : Server :=
  s.notifyMonitors (s.fold nick) rplMonOffline nick

theorem notifyMonitors_quiet (s : Server) (folded : String) (code : Nat) (payload : String) :
    (s.notifyMonitors folded code payload).toTables = s.toTables ∧
      (s.notifyMonitors folded code payload).fx.frames = s.fx.frames := by
  rw [notifyMonitors]
  split
  · exact ⟨rfl, rfl⟩
  · refine foldl_invariant (I := fun later => later.toTables = s.toTables ∧
      later.fx.frames = s.fx.frames) _ _ ?_ s ⟨rfl, rfl⟩
    intro later id _ quiet
    exact quiet

@[simp] theorem monitorOnline_toTables (s : Server) (nick mask : String) :
    (s.monitorOnline nick mask).toTables = s.toTables :=
  (notifyMonitors_quiet s _ _ _).1

@[simp] theorem monitorOnline_frames (s : Server) (nick mask : String) :
    (s.monitorOnline nick mask).fx.frames = s.fx.frames :=
  (notifyMonitors_quiet s _ _ _).2

@[simp] theorem monitorOnlineMask_toTables (s : Server) (mask : String) :
    (s.monitorOnlineMask mask).toTables = s.toTables :=
  monitorOnline_toTables s _ _

@[simp] theorem monitorOnlineMask_frames (s : Server) (mask : String) :
    (s.monitorOnlineMask mask).fx.frames = s.fx.frames :=
  monitorOnline_frames s _ _

@[simp] theorem monitorOffline_toTables (s : Server) (nick : String) :
    (s.monitorOffline nick).toTables = s.toTables :=
  (notifyMonitors_quiet s _ _ _).1

@[simp] theorem monitorOffline_frames (s : Server) (nick : String) :
    (s.monitorOffline nick).fx.frames = s.fx.frames :=
  (notifyMonitors_quiet s _ _ _).2

end Server

end Ferrixd
