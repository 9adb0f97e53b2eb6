import Mathlib.Data.List.DropRight
import Ferrixd.History

/-! # Persistence of message history

The operations queued by the history are written behind to one table, in batches.  At startup the table is
pruned and its most recent rows are loaded back into the rings. -/

namespace Ferrixd

/-- Rows kept in the database. -/
def retainRows : Nat := 100000

/-- The most operations that go into a single transaction. -/
def batchSize : Nat := 256

structure Row where
  id : Nat
  folded : String
  message : StoredMessage
  deriving DecidableEq

/-- The history table, its rows in the order of their ids.  An id is never given twice. -/
structure Database where
  rows : List Row
  lastId : Nat
  ordered : rows.Pairwise fun earlier later => earlier.id < later.id
  bounded : ∀ row ∈ rows, row.id ≤ lastId

namespace Database

def empty : Database where
  rows := []
  lastId := 0
  ordered := .nil
  bounded := by simp

/-- `INSERT INTO history`. -/
def insert (db : Database) (folded : String) (message : StoredMessage) : Database where
  rows := db.rows ++ [⟨db.lastId + 1, folded, message⟩]
  lastId := db.lastId + 1
  ordered := by
    rw [List.pairwise_append]
    refine ⟨db.ordered, List.pairwise_singleton _ _, fun row member added new => ?_⟩
    rw [List.mem_singleton.mp new]
    exact Nat.lt_succ_of_le (db.bounded row member)
  bounded := by
    intro row member
    rcases List.mem_append.mp member with old | new
    · exact Nat.le_succ_of_le (db.bounded row old)
    · rw [List.mem_singleton.mp new]

/-- Keep the rows that pass a test. -/
def keep (db : Database) (test : Row → Bool) : Database where
  rows := db.rows.filter test
  lastId := db.lastId
  ordered := db.ordered.filter _
  bounded := fun row member => db.bounded row (List.mem_of_mem_filter member)

/-- `DELETE FROM history WHERE folded = ?1 AND msgid = ?2`. -/
def delete (db : Database) (folded msgid : String) : Database :=
  db.keep fun row => !(row.folded == folded && row.message.msgid == msgid)

/-- `UPDATE history SET folded = ?2 WHERE folded = ?1`. -/
def rename (db : Database) (old new : String) : Database where
  rows := db.rows.map fun row => if row.folded = old then { row with folded := new } else row
  lastId := db.lastId
  ordered := by
    rw [List.pairwise_map]
    refine db.ordered.imp fun earlier => ?_
    split <;> split <;> exact earlier
  bounded := by
    intro row member
    obtain ⟨before, inRows, rfl⟩ := List.mem_map.mp member
    split <;> exact db.bounded before inRows

/-- The highest id, or none in an empty table. -/
def maxId (db : Database) : Nat :=
  (db.rows.map (·.id)).foldl max 0

/-- Bound the table to its newest rows. -/
def prune (db : Database) : Database :=
  db.keep fun row => !(row.id + retainRows ≤ db.maxId)

def apply (db : Database) : PersistOp → Database
  | .store folded message => db.insert folded message
  | .delete folded msgid => db.delete folded msgid
  | .rename old new => db.rename old new

/-- One transaction of the writer. -/
def writeBatch (db : Database) (batch : List PersistOp) : Database :=
  batch.foldl apply db

/-- The messages of a target, oldest first. -/
def messagesOf (db : Database) (folded : String) : List StoredMessage :=
  (db.rows.filter fun row => row.folded = folded).map (·.message)

end Database

/-! ## Loading -/

/-- `u64::from_str_radix(_, 16)`. -/
def fromStrRadix16 (text : List Char) : Option UInt64 :=
  let digits := match text with
    | '+' :: rest => rest
    | chars => chars
  if digits.isEmpty then none
  else (parseDigits 16 digits).bind fun value => if value < 2 ^ 64 then some (UInt64.ofNat value) else none

/-- What stands after the last hyphen of a message id. -/
def counterPart (msgid : String) : List Char :=
  msgid.toList.rtakeWhile fun c => c != '-'

/-- The counter of a minted message id. -/
def msgidCounter (msgid : String) : Option UInt64 :=
  fromStrRadix16 (counterPart msgid)

/-- The history loaded from disk, oldest first, and the highest counter among its ids. -/
structure Loaded where
  messages : List (String × StoredMessage)
  maxCounter : UInt64

/-- The counter that follows, which wraps in a release build and panics in a debug build. -/
def Loaded.nextId (loaded : Loaded) : UInt64 :=
  loaded.maxCounter + 1

/-- The newest rows. -/
def Database.window (db : Database) (loadLimit : Nat) : List Row :=
  db.rows.rtake loadLimit

def Database.load (db : Database) (loadLimit : Nat) : Loaded where
  messages := (db.window loadLimit).map fun row => (row.folded, row.message)
  maxCounter := (db.window loadLimit).foldl
    (fun sofar row => (msgidCounter row.message.msgid).elim sofar fun counter => max sofar counter) 0

/-- The options of the store. -/
structure HistoryOptions where
  historyLen : Nat
  historyMaxTargets : Nat
  sid : String

namespace History

/-- Load a message into memory only. -/
def load (history : History) (foldedTarget : String) (message : StoredMessage) : History :=
  history.push foldedTarget message

def seedNextId (history : History) (next : UInt64) : History :=
  { history with nextId := max next 1 }

def attachPersistence (history : History) : History :=
  { history with persist := some [] }

/-- The operations that are queued. -/
def queue (history : History) : List PersistOp :=
  history.persist.getD []

/-- The history of a server that starts on a database. -/
def startup (options : HistoryOptions) (loaded : Loaded) : History :=
  let history := (History.new options.historyLen options.historyMaxTargets).setMsgidLead options.sid
  let history := loaded.messages.foldl (fun history entry => history.load entry.1 entry.2) history
  (history.seedNextId loaded.nextId).attachPersistence

/-- The messages held of a target, oldest first. -/
def ring (history : History) (folded : String) : List StoredMessage :=
  (history.log.lookup folded).getD []

end History

end Ferrixd
