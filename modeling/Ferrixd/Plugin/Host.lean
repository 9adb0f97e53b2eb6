import Ferrixd.Command.Topic
import Ferrixd.Plugin.KvStore

/-! # What a plugin may ask of its host

A hook call of a plugin may rewrite the text, give a reason, queue actions and write to its store.  What it
queues is carried out when the call has returned. -/

namespace Ferrixd

/-! ## Text from a plugin -/

def maxTextBytes : Nat := 400
def maxReasonBytes : Nat := 200
def maxTargetBytes : Nat := 64
def maxMaskBytes : Nat := 128
def maxModeFlagsBytes : Nat := 128
def maxModeArgs : Nat := 8
def maxTopicScratchBytes : Nat := maxTopicLen * 4

/-- The characters that are kept, when so many bytes are used. -/
def sanitizeChars (maxBytes : Nat) (stripCtl : Bool) (used : Nat) : List Char → List Char
  | [] => []
  | c :: rest =>
    if c = '\r' ∨ c = '\n' ∨ c = '\x00' ∨ (stripCtl ∧ c.val < 0x20) then sanitizeChars maxBytes stripCtl used rest
    else if maxBytes < used + c.utf8Size then []
    else c :: sanitizeChars maxBytes stripCtl (used + c.utf8Size) rest

/-- Without line breaks and NULs, or any control characters, and cut to a length. -/
def sanitizeText (input : String) (maxBytes : Nat) (stripCtl : Bool) : String :=
  String.ofList (sanitizeChars maxBytes stripCtl 0 input.toList)

/-- A nick or a channel that can be the target of an action. -/
def validTarget (target : String) : Bool :=
  target != "" && target.utf8ByteSize ≤ maxTargetBytes &&
    !target.toList.any fun c => isWhitespace c || c.val < 0x21 || c = ',' || c = '*' || c = '?' || c = '!'

/-- A mask that can be installed as a K-Line. -/
def validMask (mask : String) : Bool :=
  mask != "" && mask.utf8ByteSize ≤ maxMaskBytes && !startsWith mask ":" &&
    !mask.toList.any fun c => isWhitespace c || c.val < 0x21

def validChannel (channel : String) : Bool :=
  validTarget channel && startsWith channel "#"

/-- The flags and the arguments of a mode string. -/
def parseModeString (raw : String) : Option (String × List String) :=
  match splitWhitespace raw with
  | [] => none
  | flags :: words =>
    if maxModeFlagsBytes < flags.utf8ByteSize ∨
        !flags.toList.all (fun c => c = '+' || c = '-' || c.isAlpha) ∨ !flags.toList.any Char.isAlpha then none
    else if maxModeArgs < words.length ∨
        words.any fun word => maxTargetBytes < word.utf8ByteSize || startsWith word ":" then none
    else some (flags, words)

namespace Plugin

/-- What a plugin queued, for the server to carry out. -/
inductive Action where
  | notice (target text : String)
  | message (target text : String)
  | kick (channel nick reason : String)
  | mode (channel flags : String) (args : List String)
  | topic (channel text : String)
  | kline (mask reason setBy : String)
  deriving DecidableEq

inductive Capability where
  | sendNotice
  | sendMessage
  | kick
  | mode
  | topic
  | kline
  deriving DecidableEq

/-- What a hook call has produced so far. -/
structure CallScratch where
  allowReplace : Bool := false
  replacement : Option String := none
  reason : Option String := none
  actions : List Action := []
  deriving DecidableEq

/-- Actions a single hook call may queue. -/
def maxActionsPerCall : Nat := 4

/-- Actions a plugin may perform per rolling minute. -/
def maxActionsPerMinute : UInt32 := 120

/-- The state of a plugin that its host keeps. -/
structure HostState where
  name : String
  caps : List Capability
  kv : KvStore
  windowStartMs : UInt64
  windowActions : UInt32
  call : CallScratch

namespace HostState

variable (host : HostState) (now : UInt64)

/-- The window is over. -/
def windowEnded : Bool :=
  60000 ≤ now.toNat - host.windowStartMs.toNat

/-- Count one action against the budget of the call and that of the minute; `false` if it must be refused. -/
def takeActionSlot : HostState × Bool :=
  if maxActionsPerCall ≤ host.call.actions.length then (host, false)
  else
    let host := if host.windowEnded now then { host with windowStartMs := now, windowActions := 0 } else host
    if maxActionsPerMinute ≤ host.windowActions then (host, false)
    else ({ host with windowActions := host.windowActions + 1 }, true)

def setText (text : String) : HostState :=
  let text := sanitizeText text maxTextBytes false
  if !host.call.allowReplace || text = "" then host
  else { host with call := { host.call with replacement := some text } }

def setReason (text : String) : HostState :=
  let reason := sanitizeText text maxReasonBytes true
  if reason = "" then host else { host with call := { host.call with reason := some reason } }

/-- An action that a plugin asks for, with what it needs. -/
structure Request where
  capability : Capability
  valid : Bool
  action : Action

def sendNotice (_host : HostState) (target text : String) : Request where
  capability := .sendNotice
  valid := validTarget target && sanitizeText text maxTextBytes false != ""
  action := .notice target (sanitizeText text maxTextBytes false)

def sendMessage (_host : HostState) (target text : String) : Request where
  capability := .sendMessage
  valid := validTarget target && sanitizeText text maxTextBytes false != ""
  action := .message target (sanitizeText text maxTextBytes false)

def kick (channel nick reason : String) : Request where
  capability := .kick
  valid := validChannel channel && validTarget nick
  action :=
    let reason := sanitizeText reason maxReasonBytes true
    .kick channel nick (if reason = "" then "Kicked by " ++ host.name else reason)

def setMode (_host : HostState) (channel modes : String) : Request where
  capability := .mode
  valid := validChannel channel && (parseModeString modes).isSome
  action :=
    let (flags, args) := (parseModeString modes).getD ("", [])
    .mode channel flags args

def setTopic (_host : HostState) (channel text : String) : Request where
  capability := .topic
  valid := validChannel channel
  action := .topic channel (truncateChars (sanitizeText text maxTopicScratchBytes false) maxTopicLen)

def kline (mask reason : String) : Request where
  capability := .kline
  valid := validMask mask
  action :=
    let reason := sanitizeText reason maxReasonBytes true
    .kline mask (if reason = "" then "K-Lined" else reason) ("plugin:" ++ host.name)

/-- The plugin may ask for this, and has asked for it in the right way. -/
def allows (request : Request) : Bool :=
  host.caps.contains request.capability && request.valid

/-- Queue an action, if it is allowed and there is a slot for it. -/
def act (request : Request) : HostState × Bool :=
  if !host.allows request then (host, false)
  else
    match host.takeActionSlot now with
    | (host, false) => (host, false)
    | (host, true) =>
      ({ host with call := { host.call with actions := host.call.actions ++ [request.action] } }, true)

def kvSet (key : String) (value : Bytes) : HostState × Bool :=
  ({ host with kv := (host.kv.set key value).1 }, (host.kv.set key value).2)

end HostState

/-- A call of the host API that may change the state of the plugin. -/
inductive HostCall where
  | setText (text : String)
  | setReason (text : String)
  | sendNotice (target text : String)
  | sendMessage (target text : String)
  | kick (channel nick reason : String)
  | setMode (channel modes : String)
  | setTopic (channel text : String)
  | kline (mask reason : String)
  | kvSet (key : String) (value : Bytes)

namespace HostState

/-- The action that a call asks for. -/
def request? (host : HostState) : HostCall → Option Request
  | .sendNotice target text => some (host.sendNotice target text)
  | .sendMessage target text => some (host.sendMessage target text)
  | .kick channel nick reason => some (host.kick channel nick reason)
  | .setMode channel modes => some (host.setMode channel modes)
  | .setTopic channel text => some (host.setTopic channel text)
  | .kline mask reason => some (host.kline mask reason)
  | _ => none

/-- Serve a call; `false` means that it is refused. -/
def serve (host : HostState) (now : UInt64) : HostCall → HostState × Bool
  | .setText text => (host.setText text, true)
  | .setReason text => (host.setReason text, true)
  | .sendNotice target text => host.act now (host.sendNotice target text)
  | .sendMessage target text => host.act now (host.sendMessage target text)
  | .kick channel nick reason => host.act now (host.kick channel nick reason)
  | .setMode channel modes => host.act now (host.setMode channel modes)
  | .setTopic channel text => host.act now (host.setTopic channel text)
  | .kline mask reason => host.act now (host.kline mask reason)
  | .kvSet key value => host.kvSet key value

variable {host : HostState} {now : UInt64} {call : HostCall}

theorem serve_request {request : Request} (asked : host.request? call = some request) :
    host.serve now call = host.act now request := by
  cases call <;> cases asked <;> rfl

/-- A call that asks for no action leaves the budgets alone. -/
structure SameBudgets (before after : HostState) : Prop where
  caps : after.caps = before.caps
  windowStartMs : after.windowStartMs = before.windowStartMs
  windowActions : after.windowActions = before.windowActions
  actions : after.call.actions = before.call.actions

theorem SameBudgets.rfl : SameBudgets host host :=
  ⟨Eq.refl _, Eq.refl _, Eq.refl _, Eq.refl _⟩

theorem serve_other (other : host.request? call = none) : SameBudgets host (host.serve now call).1 := by
  cases call with
  | setText text =>
    simp only [serve, setText]
    split
    · exact .rfl
    · exact ⟨Eq.refl _, Eq.refl _, Eq.refl _, Eq.refl _⟩
  | setReason text =>
    simp only [serve, setReason]
    split
    · exact .rfl
    · exact ⟨Eq.refl _, Eq.refl _, Eq.refl _, Eq.refl _⟩
  | kvSet key value => exact ⟨Eq.refl _, Eq.refl _, Eq.refl _, Eq.refl _⟩
  | _ => cases other

/-- There is a slot if the call has not queued too much and the minute is over or has room. -/
def hasSlot (host : HostState) (now : UInt64) : Prop :=
  host.call.actions.length < maxActionsPerCall ∧
    (host.windowEnded now = true ∨ host.windowActions < maxActionsPerMinute)

/-- The state after an action has been queued. -/
def queued (host : HostState) (now : UInt64) (action : Action) : HostState :=
  { host with
    windowStartMs := if host.windowEnded now then now else host.windowStartMs
    windowActions := if host.windowEnded now then 1 else host.windowActions + 1
    call := { host.call with actions := host.call.actions ++ [action] } }

theorem takeActionSlot_full (full : ¬ host.hasSlot now) : host.takeActionSlot now = (host, false) := by
  rw [hasSlot, not_and, not_or] at full
  rw [takeActionSlot]
  split
  · rfl
  · rename_i room
    obtain ⟨running, spent⟩ := full (Nat.lt_of_not_le room)
    have same : (if host.windowEnded now = true then
        { host with windowStartMs := now, windowActions := 0 } else host) = host := if_neg running
    simp only [same]
    exact if_pos (UInt32.not_lt.mp spent)

theorem takeActionSlot_free (free : host.hasSlot now) :
    host.takeActionSlot now = ({ host with
      windowStartMs := if host.windowEnded now then now else host.windowStartMs
      windowActions := if host.windowEnded now then 1 else host.windowActions + 1 }, true) := by
  obtain ⟨room, rate⟩ := free
  rw [takeActionSlot, if_neg (Nat.not_le_of_lt room)]
  by_cases ended : host.windowEnded now = true
  · simp only [if_pos ended]
    rfl
  · have below := rate.resolve_left ended
    simp only [if_neg ended, if_neg (UInt32.not_le.mpr below)]

theorem act_refused {request : Request} (refused : ¬ (host.allows request = true ∧ host.hasSlot now)) :
    host.act now request = (host, false) := by
  rw [act]
  by_cases allowed : host.allows request = true
  · have full : ¬ host.hasSlot now := fun free => refused ⟨allowed, free⟩
    rw [allowed, Bool.not_true, if_neg Bool.false_ne_true, takeActionSlot_full full]
  · rw [if_pos (by simpa using allowed)]

theorem act_granted {request : Request} (allowed : host.allows request = true) (free : host.hasSlot now) :
    host.act now request = (host.queued now request.action, true) := by
  rw [act, allowed, Bool.not_true, if_neg Bool.false_ne_true, takeActionSlot_free free]
  rfl

end HostState

end Plugin

end Ferrixd
