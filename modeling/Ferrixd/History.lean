import Ferrixd.Data.Digits
import Ferrixd.Data.Table
import Ferrixd.Text

/-! # Message history

A bounded ring of messages per folded target, and the queue of operations handed to
durable storage. -/

namespace Ferrixd

inductive MessageKind where
  | privMsg
  | notice
  | join
  | part
  | quit
  | nick
  | topic
  | kick
  | mode
  deriving DecidableEq, Repr

/-- A single message retained for replay. -/
structure StoredMessage where
  msgid : String
  timeMs : UInt64
  source : String
  account : Option String
  kind : MessageKind
  target : String
  text : String
  deriving DecidableEq

/-- An operation queued for durable storage. -/
inductive PersistOp where
  | store (folded : String) (message : StoredMessage)
  | delete (folded msgid : String)
  | rename (old new : String)
  deriving DecidableEq

/-- The key of the conversation between two folded nicks. -/
def pairKey (a b : String) : String :=
  let (lo, hi) := if a ≤ b then (a, b) else (b, a)
  "@dm\x00" ++ lo ++ "\x00" ++ hi

/-- `format!("{:016x}")`. -/
def hex16 (value : UInt64) : String :=
  let digits := Nat.toDigits 16 value.toNat
  String.ofList (List.replicate (16 - digits.length) '0' ++ digits)

/-- A number in sixteen hexadecimal digits. -/
theorem hex16_digits (value : UInt64) :
    (hex16 value).toList.length = 16 ∧ ∀ c ∈ (hex16 value).toList, ∃ digit < 16, c = Nat.digitChar digit := by
  rw [hex16, String.toList_ofList]
  constructor
  · have short : (Nat.toDigits 16 value.toNat).length ≤ 16 :=
      (Nat.length_toDigits_le_iff (by omega) (by omega)).mpr value.toNat_lt
    rw [List.length_append, List.length_replicate]
    omega
  · intro c member
    rcases List.mem_append.mp member with zero | digit
    · exact ⟨0, by omega, List.eq_of_mem_replicate zero⟩
    · exact mem_toDigits (by omega) digit

structure History where
  maxPerTarget : Nat
  maxTargets : Nat
  log : Table String (List StoredMessage)
  nextId : UInt64
  msgidLead : String
  /-- The operations queued so far, if durable storage is attached. -/
  persist : Option (List PersistOp)

namespace History

def new (maxPerTarget maxTargets : Nat) : History where
  maxPerTarget := max maxPerTarget 1
  maxTargets := max maxTargets 1
  log := ∅
  nextId := 1
  msgidLead := ""
  persist := none

def setMsgidLead (history : History) (sid : String) : History :=
  { history with msgidLead := sid ++ "-" }

/-- The id the next message gets, and the counter past it. -/
def nextMsgid (history : History) : String × History :=
  (history.msgidLead ++ hex16 history.nextId, { history with nextId := history.nextId + 1 })

def enqueue (history : History) (op : PersistOp) : History :=
  { history with persist := history.persist.map fun queue => queue ++ [op] }

/-- Evict a batch of the least-recently-active rings. -/
def evictOldest (history : History) : History :=
  let batch := max (history.maxTargets / 32) 1
  let byAge := history.log.entries.map fun entry => (entry.1, (entry.2.getLast?.map (·.timeMs)).getD 0)
  let victims := (byAge.mergeSort fun left right => left.2 ≤ right.2).take batch
  { history with log := victims.foldl (fun log victim => log.erase victim.1) history.log }

def push (history : History) (foldedTarget : String) (message : StoredMessage) : History :=
  let history :=
    if history.maxTargets ≤ history.log.keys.length ∧ foldedTarget ∉ history.log then
      history.evictOldest
    else history
  let ring := (history.log.lookup foldedTarget).getD [] ++ [message]
  { history with log := history.log.insert foldedTarget (ring.drop (ring.length - history.maxPerTarget)) }

def record (history : History) (foldedTarget : String) (message : StoredMessage) : History :=
  (history.push foldedTarget message).enqueue (.store foldedTarget message)

/-- Remove the first message with this id; the ring stays, possibly empty. -/
def redact (history : History) (foldedTarget msgid : String) : History :=
  match history.log.lookup foldedTarget with
  | none => history
  | some ring =>
    if ring.any fun message => message.msgid == msgid then
      let kept := ring.eraseP fun message => message.msgid == msgid
      { history with log := history.log.insert foldedTarget kept }.enqueue (.delete foldedTarget msgid)
    else history

def renameTarget (history : History) (oldFolded newFolded : String) : History :=
  let log := match history.log.lookup oldFolded with
    | some ring => (history.log.erase oldFolded).insert newFolded ring
    | none => history.log
  { history with log }.enqueue (.rename oldFolded newFolded)

def forget (history : History) (foldedTarget : String) : History :=
  { history with log := history.log.erase foldedTarget }

end History

end Ferrixd
