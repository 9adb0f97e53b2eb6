import Ferrixd.History

/-! # History queries

What `CHATHISTORY` reads of a ring: the points that select messages, and the windows before, after, around and between
them. -/

namespace Ferrixd

/-- A plain message, which is always replayed, and not an event. -/
def MessageKind.isMessage : MessageKind → Bool
  | .privMsg | .notice => true
  | _ => false

/-- A point of a history: `*`, `timestamp=…`, or `msgid=…`. -/
inductive Selector where
  | latest
  | timestamp (ms : UInt64)
  | msgId (id : String)
  deriving DecidableEq, Repr

/-- `slice::partition_point`: how many items of a list partitioned by a test pass it. -/
def partitionPoint {α : Type} (test : α → Bool) (items : List α) : Nat :=
  (items.takeWhile test).length

/-- The index of the first message with this id. -/
def indexOfMsgid (msgs : List StoredMessage) (id : String) : Option Nat :=
  msgs.findIdx? fun message => message.msgid == id

def resolveIndex (msgs : List StoredMessage) : Selector → Option Nat
  | .latest => some (msgs.length - 1)
  | .timestamp ts => some (partitionPoint (fun message => message.timeMs < ts) msgs)
  | .msgId id => indexOfMsgid msgs id

def selectorTime : Selector → Option UInt64
  | .timestamp ts => some ts
  | _ => none

def filterBefore (msgs : List StoredMessage) : Selector → List StoredMessage
  | .latest => msgs
  | .timestamp ts => msgs.filter fun message => message.timeMs < ts
  | .msgId id =>
    match indexOfMsgid msgs id with
    | some i => msgs.take i
    | none => []

def filterAfter (msgs : List StoredMessage) : Selector → List StoredMessage
  | .latest => msgs
  | .timestamp ts => msgs.filter fun message => ts < message.timeMs
  | .msgId id =>
    match indexOfMsgid msgs id with
    | some i => msgs.drop (i + 1)
    | none => []

def takeLast {α : Type} (items : List α) (limit : Nat) : List α :=
  if limit < items.length then items.drop (items.length - limit) else items

def takeFirst {α : Type} (items : List α) (limit : Nat) : List α :=
  items.take limit

/-- The two folded nicks of a conversation's key. -/
def pairParties (foldedKey : String) : Option (String × String) :=
  (stripLead? foldedKey "@dm\x00").bind fun rest =>
    if containsChar rest '\x00' then
      let first := beforeChar rest '\x00'
      some (first, String.ofList (rest.toList.drop (first.toList.length + 1)))
    else none

namespace History

/-- A target's ring, with the events only where they are wanted. -/
def snapshot (history : History) (foldedTarget : String) (includeEvents : Bool) : List StoredMessage :=
  match history.log.lookup foldedTarget with
  | some ring => ring.filter fun message => includeEvents || message.kind.isMessage
  | none => []

/-- The newest messages after a point. -/
def latest (history : History) (foldedTarget : String) (after : Selector) (limit : Nat) (includeEvents : Bool) :
    List StoredMessage :=
  let msgs := history.snapshot foldedTarget includeEvents
  takeLast (filterAfter msgs after) limit

/-- The messages immediately before a point. -/
def before (history : History) (foldedTarget : String) (point : Selector) (limit : Nat) (includeEvents : Bool) :
    List StoredMessage :=
  let msgs := history.snapshot foldedTarget includeEvents
  takeLast (filterBefore msgs point) limit

/-- The messages immediately after a point. -/
def after (history : History) (foldedTarget : String) (point : Selector) (limit : Nat) (includeEvents : Bool) :
    List StoredMessage :=
  let msgs := history.snapshot foldedTarget includeEvents
  takeFirst (filterAfter msgs point) limit

/-- The messages around a point, half before and half after it. -/
def around (history : History) (foldedTarget : String) (point : Selector) (limit : Nat) (includeEvents : Bool) :
    List StoredMessage :=
  let msgs := history.snapshot foldedTarget includeEvents
  match resolveIndex msgs point with
  | none => []
  | some anchor =>
    let half := limit / 2
    let start := anchor - half
    let stop := min (anchor + (half + 1)) msgs.length
    takeFirst ((msgs.take stop).drop start) limit

/-- The messages strictly between two points. -/
def between (history : History) (foldedTarget : String) (a b : Selector) (limit : Nat) (includeEvents : Bool) :
    List StoredMessage :=
  let msgs := history.snapshot foldedTarget includeEvents
  match resolveIndex msgs a, resolveIndex msgs b with
  | some ia, some ib =>
    let (lo, hi) := (min ia ib, max ia ib)
    let start := min (lo + 1) msgs.length
    let stop := min hi msgs.length
    if stop ≤ start then [] else takeFirst ((msgs.take stop).drop start) limit
  | _, _ => []

/-- The targets with messages in a window, each with the time of its newest one, the most recent first. -/
def targets (history : History) (after before : Selector) (limit : Nat) : List (String × UInt64) :=
  let lo := (selectorTime after).getD 0
  let hi := (selectorTime before).getD (UInt64.ofNat (2 ^ 64 - 1))
  let (lo, hi) := (min lo hi, max lo hi)
  let out := history.log.entries.filterMap fun entry =>
    (entry.2.reverse.find? fun message => lo ≤ message.timeMs ∧ message.timeMs ≤ hi ∧ message.kind.isMessage).map
      fun last => (entry.1, last.timeMs)
  (out.mergeSort fun left right => right.2 ≤ left.2).take limit

end History

end Ferrixd
