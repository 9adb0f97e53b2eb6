import Mathlib.Data.List.Dedup
import Ferrixd.Data.Machine
import Ferrixd.Persist.Rings

/-! # The table refines the rings

The rings in memory are the newest rows of the table, once the queue is written, as long as a redaction finds
its message once and a rename leaves no newer rows of another life behind.  A restart brings back the rings whose rows
it does not prune. -/

namespace Ferrixd

/-- A call on the history that is written behind. -/
inductive HistoryCall where
  | record (folded : String) (message : StoredMessage)
  | redact (folded msgid : String)
  | renameTarget (old new : String)

def History.call (history : History) : HistoryCall → History
  | .record folded message => history.record folded message
  | .redact folded msgid => history.redact folded msgid
  | .renameTarget old new => history.renameTarget old new

/-- A history over the table it is written to.  `erased` keeps the ids of the rows that redactions delete. -/
structure Storage where
  history : History
  database : Database
  erased : List Nat

namespace Storage

/-- The table once the queue is written. -/
def settled (storage : Storage) : Database :=
  storage.database.writeBatch storage.history.queue

/-- The rows that a call redacts. -/
def erases (storage : Storage) : HistoryCall → List Nat
  | .redact folded msgid =>
    if storage.history.Finds folded msgid then
      (storage.settled.rows.filter fun row => row.folded == folded && row.message.msgid == msgid).map (·.id)
    else []
  | _ => []

/-- A call on the history, or a transaction of the writer. -/
inductive Action where
  | call (call : HistoryCall)
  | write (count : Nat)

inductive Step (storage : Storage) : Action → Storage → Prop where
  | call (call : HistoryCall) :
      Step storage (.call call)
        { storage with
          history := storage.history.call call
          erased := storage.erased ++ storage.erases call }
  | write {count : Nat} (batched : count ≤ batchSize) (queued : count ≤ storage.history.queue.length) :
      Step storage (.write count)
        { storage with
          history := { storage.history with persist := some (storage.history.queue.drop count) }
          database := storage.database.writeBatch (storage.history.queue.take count) }

/-- The store of a server that starts on a database, which is pruned first. -/
def start (options : HistoryOptions) (db : Database) (loadLimit : Nat) : Storage :=
  ⟨History.startup options (db.prune.load loadLimit), db.prune, []⟩

def machine (options : HistoryOptions) : Machine Storage Action where
  start storage := ∃ db loadLimit, storage = start options db loadLimit
  step storage action next := storage.Step action next

/-- The newest rows under two names, as many as one of them holds in memory, are all under that name. -/
def Newest (storage : Storage) (old new : String) : Prop :=
  let kept := storage.history.keptBy old new
  ∀ row ∈ (storage.settled.rows.filter fun row => row.folded = old ∨ row.folded = new).rtake
    (storage.history.ring kept).length, row.folded = kept

/-- The calls that do the same to the rings as to the table. -/
def Reflected (storage : Storage) : Action → Prop
  | .call (.record _ _) => True
  | .call (.redact folded msgid) =>
    (storage.history.ring folded).countP (fun message => message.msgid == msgid) ≤ 1
  | .call (.renameTarget old new) => storage.Newest old new
  | .write _ => True

/-- The rings are the newest rows of their targets. -/
def Mirrored (storage : Storage) : Prop :=
  storage.history.Tails storage.settled.messagesOf

end Storage

/-! ## The operations on the table -/

namespace Database

theorem messagesOf_insert (db : Database) (target folded : String) (message : StoredMessage) :
    (db.insert target message).messagesOf folded = db.messagesOf folded ++ if folded = target then [message] else [] := by
  rw [messagesOf, insert, List.filter_append, List.map_append, messagesOf]
  by_cases same : folded = target
  · simp [same]
  · simp [same, Ne.symm same]

theorem messagesOf_delete (db : Database) (target msgid folded : String) :
    (db.delete target msgid).messagesOf folded =
      if folded = target then (db.messagesOf folded).filter fun message => !(message.msgid == msgid)
      else db.messagesOf folded := by
  rw [messagesOf, delete, keep, List.filter_filter]
  split
  · rename_i same
    rw [messagesOf, List.filter_map, List.filter_filter]
    refine congrArg (List.map Row.message) (List.filter_congr fun row _ => ?_)
    simp only [same, Function.comp_apply]
    cases stored : decide (row.folded = target) with
    | false => simp
    | true => simp [of_decide_eq_true stored]
  · rename_i apart
    rw [messagesOf]
    refine congrArg (List.map Row.message) (List.filter_congr fun row _ => ?_)
    cases stored : decide (row.folded = folded) with
    | false => simp
    | true => simp [of_decide_eq_true stored, apart]

theorem row_unique (db : Database) {row other : Row} (member : row ∈ db.rows) (otherMember : other ∈ db.rows)
    (same : row.id = other.id) : row = other := by
  have distinct : (db.rows.map (·.id)).Nodup := List.pairwise_map.mpr (db.ordered.imp Nat.ne_of_lt)
  exact List.inj_on_of_nodup_map distinct member otherMember same

/-- The messages under either of two names. -/
def messagesOfEither (db : Database) (old new : String) : List StoredMessage :=
  (db.rows.filter fun row => row.folded = old ∨ row.folded = new).map (·.message)

theorem messagesOf_rename (db : Database) (old new folded : String) :
    (db.rename old new).messagesOf folded =
      if folded = new then db.messagesOfEither old new
      else if folded = old then [] else db.messagesOf folded := by
  have moved : (db.rename old new).messagesOf folded =
      (db.rows.filter fun row => (if row.folded = old then new else row.folded) = folded).map (·.message) := by
    rw [messagesOf, rename, List.filter_map, List.map_map]
    have kept : (fun row : Row => row.message) ∘ (fun row => if row.folded = old then { row with folded := new } else row) =
        fun row => row.message := by
      funext row
      rw [Function.comp_apply]
      split <;> rfl
    rw [kept]
    refine congrArg (List.map Row.message) (List.filter_congr fun row _ => ?_)
    rw [Function.comp_apply]
    split <;> rfl
  rw [moved]
  -- rows of the old name have left it, and those of the new one keep their order among them
  split
  · rename_i same
    refine congrArg (List.map Row.message) (List.filter_congr fun row _ => ?_)
    by_cases renamed : row.folded = old
    · simp [renamed, same]
    · simp [renamed, same]
  · rename_i apart
    split
    · rename_i same
      rw [List.map_eq_nil_iff, List.filter_eq_nil_iff]
      intro row _
      by_cases renamed : row.folded = old
      · simp [renamed, Ne.symm apart]
      · simp [renamed, same]
    · rename_i other
      refine congrArg (List.map Row.message) (List.filter_congr fun row _ => ?_)
      by_cases renamed : row.folded = old
      · simp [renamed, Ne.symm apart, Ne.symm other]
      · simp [renamed]

end Database

/-! ## Calls and the queue -/

namespace Storage

/-- What a call queues. -/
def queues (history : History) : HistoryCall → List PersistOp
  | .record folded message => [.store folded message]
  | .redact folded msgid => if history.Finds folded msgid then [.delete folded msgid] else []
  | .renameTarget old new => [.rename old new]

theorem queue_call {history : History} (attached : history.persist.isSome) (call : HistoryCall) :
    (history.call call).queue = history.queue ++ queues history call ∧ (history.call call).persist.isSome := by
  obtain ⟨queue, stored⟩ := Option.isSome_iff_exists.mp attached
  have enqueued : ∀ (other : History) (op : PersistOp), other.persist = some queue →
      (other.enqueue op).queue = history.queue ++ [op] ∧ (other.enqueue op).persist.isSome := by
    intro other op same
    rw [History.queue, History.queue, History.enqueue, same, stored]
    exact ⟨rfl, rfl⟩
  have unchanged : history.queue = history.queue ++ [] ∧ history.persist.isSome :=
    ⟨(List.append_nil _).symm, attached⟩
  cases call with
  | record folded message =>
    exact enqueued _ _ ((History.push_persist history folded message).trans stored)
  | redact folded msgid =>
    rw [History.call, queues, History.redact]
    split
    · rename_i unheld
      -- only a message that memory still has is redacted in the database
      have lost : ¬ history.Finds folded msgid := by
        rw [History.Finds, History.ring, unheld]
        simp
      rw [if_neg lost]
      exact unchanged
    · rename_i held holds
      have finds : history.Finds folded msgid ↔ (held.any fun message => message.msgid == msgid) = true := by
        rw [History.Finds, History.ring, holds]
        rfl
      split
      · rename_i found
        rw [if_pos (finds.mpr found)]
        exact enqueued _ _ stored
      · rename_i lost
        rw [if_neg fun found => lost (finds.mp found)]
        exact unchanged
  | renameTarget old new => exact enqueued _ _ stored

theorem settled_call {storage : Storage} (attached : storage.history.persist.isSome) (call : HistoryCall)
    (erased : List Nat) :
    ({ storage with history := storage.history.call call, erased } : Storage).settled =
      storage.settled.writeBatch (queues storage.history call) := by
  rw [settled, (queue_call attached call).1, settled, Database.writeBatch, Database.writeBatch, Database.writeBatch,
    List.foldl_append]

/-! ## The rings keep being the newest rows -/

theorem mirrored_record {storage : Storage} (mirrored : storage.Mirrored) (folded : String) (message : StoredMessage) :
    (storage.history.record folded message).Tails (storage.settled.insert folded message).messagesOf := by
  have tails := History.Tails.push mirrored folded message
  rw [show (storage.settled.insert folded message).messagesOf = _ from
    funext (storage.settled.messagesOf_insert folded · message)]
  exact ⟨tails.suffix, tails.short⟩

theorem mirrored_redact {storage : Storage} (mirrored : storage.Mirrored) {folded msgid : String}
    (single : (storage.history.ring folded).countP (fun message => message.msgid == msgid) ≤ 1) :
    (storage.history.redact folded msgid).Tails
      (storage.settled.writeBatch (queues storage.history (.redact folded msgid))).messagesOf := by
  by_cases found : storage.history.Finds folded msgid
  · have tails := History.Tails.redact mirrored single
    rw [queues, if_pos found]
    rw [show (storage.settled.writeBatch [.delete folded msgid]).messagesOf = _ from
      funext (storage.settled.messagesOf_delete folded msgid ·)]
    exact ⟨tails.suffix, tails.short⟩
  · rw [queues, if_neg found, History.redact_of_lost found]
    exact mirrored

/-- The ring that a rename keeps is the end of what the table has under both names. -/
theorem kept_suffix {storage : Storage} (mirrored : storage.Mirrored) {old new : String}
    (newest : storage.Newest old new) :
    storage.history.ring (storage.history.keptBy old new) <:+ storage.settled.messagesOfEither old new := by
  have either : storage.history.keptBy old new = old ∨ storage.history.keptBy old new = new := by
    rw [History.keptBy]
    split
    · exact .inl rfl
    · exact .inr rfl
  rw [Storage.Newest] at newest
  generalize storage.history.keptBy old new = kept at newest either
  have ends := mirrored.suffix kept
  rw [Database.messagesOfEither]
  generalize merging : storage.settled.rows.filter (fun row => row.folded = old ∨ row.folded = new) = merged at newest
  have own : merged.filter (fun row => row.folded = kept) = storage.settled.rows.filter fun row => row.folded = kept := by
    rw [← merging, List.filter_filter]
    refine List.filter_congr fun row _ => ?_
    rcases either with rfl | rfl
    · simpa using Or.inl
    · simpa using Or.inr
  have held : (storage.history.ring kept).length ≤ merged.length := by
    refine ends.length_le.trans ?_
    rw [Database.messagesOf, List.length_map, ← own]
    exact List.length_filter_le _ _
  -- the newest rows under both names are the newest of the kept one
  have tail : merged.rtake (storage.history.ring kept).length <:+
      storage.settled.rows.filter fun row => row.folded = kept := by
    rw [← own, ← List.filter_eq_self.mpr fun row member => decide_eq_true (newest row member)]
    exact (History.rtake_suffix _ merged).filter _
  have same : storage.history.ring kept = (merged.rtake (storage.history.ring kept).length).map (·.message) := by
    have length : ((merged.rtake (storage.history.ring kept).length).map Row.message).length =
        (storage.history.ring kept).length := by
      rw [List.length_map, History.length_rtake]
      exact Nat.min_eq_left held
    exact (List.suffix_of_suffix_length_le ends (tail.map Row.message) length.ge).eq_of_length length.symm
  rw [same]
  exact (History.rtake_suffix _ merged).map Row.message

theorem mirrored_rename {storage : Storage} (mirrored : storage.Mirrored) {old new : String}
    (newest : storage.Newest old new) :
    (storage.history.renameTarget old new).Tails (storage.settled.rename old new).messagesOf where
  suffix folded := by
    rw [History.ring_renameTarget, Database.messagesOf_rename]
    split
    · exact kept_suffix mirrored newest
    · split
      · exact List.nil_suffix
      · exact mirrored.suffix folded
  short folded := by
    rw [History.ring_renameTarget, History.renameTarget_maxPerTarget]
    split
    · exact mirrored.short _
    · split
      · exact Nat.zero_le _
      · exact mirrored.short folded

/-- What every guarded run keeps. -/
structure Sound (options : HistoryOptions) (storage : Storage) : Prop where
  mirrored : storage.Mirrored
  attached : storage.history.persist.isSome
  bound : storage.history.maxPerTarget = max options.historyLen 1
  gone : ∀ row ∈ storage.settled.rows, row.id ∉ storage.erased
  past : ∀ id ∈ storage.erased, id ≤ storage.settled.lastId

variable {options : HistoryOptions} {storage : Storage}

/-- The rows that are left, and those that were redacted, after a call. -/
theorem gone_call (sound : storage.Sound options) (call : HistoryCall) :
    (∀ row ∈ (storage.settled.writeBatch (queues storage.history call)).rows,
        row.id ∉ storage.erased ++ storage.erases call) ∧
      ∀ id ∈ storage.erased ++ storage.erases call,
        id ≤ (storage.settled.writeBatch (queues storage.history call)).lastId := by
  cases call with
  | record folded message =>
    simp only [erases, List.append_nil]
    constructor
    · intro row member
      rcases List.mem_append.mp member with old | new
      · exact sound.gone row old
      · -- a new row has an id past all earlier ones
        rw [List.mem_singleton.mp new]
        intro reused
        exact absurd (sound.past _ reused) (Nat.not_succ_le_self _)
    · exact fun id member => Nat.le_succ_of_le (sound.past id member)
  | redact folded msgid =>
    by_cases found : storage.history.Finds folded msgid
    · simp only [erases, queues, if_pos found]
      constructor
      · intro row member
        obtain ⟨inRows, kept⟩ := List.mem_filter.mp (show row ∈ storage.settled.rows.filter _ from member)
        rw [List.mem_append, not_or]
        refine ⟨sound.gone row inRows, fun erased => ?_⟩
        obtain ⟨other, deleted, same⟩ := List.mem_map.mp erased
        obtain ⟨otherIn, matched⟩ := List.mem_filter.mp deleted
        -- ids are given once, so the deleted row would be this one
        have unique : other = row := storage.settled.row_unique otherIn inRows same
        rw [unique] at matched
        rw [matched] at kept
        cases kept
      · intro id member
        rcases List.mem_append.mp member with old | new
        · exact sound.past id old
        · obtain ⟨row, deleted, rfl⟩ := List.mem_map.mp new
          exact storage.settled.bounded row (List.mem_of_mem_filter deleted)
    · simp only [erases, queues, if_neg found, List.append_nil]
      exact ⟨sound.gone, sound.past⟩
  | renameTarget old new =>
    simp only [erases, List.append_nil]
    refine ⟨fun row member => ?_, sound.past⟩
    obtain ⟨before, inRows, rfl⟩ := List.mem_map.mp (show row ∈ storage.settled.rows.map _ from member)
    have kept := sound.gone before inRows
    split
    · exact kept
    · exact kept

theorem Sound.step (sound : storage.Sound options) {action : Action} {next : Storage}
    (reflected : storage.Reflected action) (taken : storage.Step action next) : next.Sound options := by
  cases taken with
  | call call =>
    obtain ⟨gone, past⟩ := gone_call sound call
    refine ⟨?_, (queue_call sound.attached call).2, ?_, ?_, ?_⟩
    · rw [Mirrored, settled_call sound.attached]
      cases call with
      | record folded message => exact mirrored_record sound.mirrored folded message
      | redact folded msgid => exact mirrored_redact sound.mirrored reflected
      | renameTarget old new => exact mirrored_rename sound.mirrored reflected
    · rw [← sound.bound]
      cases call with
      | record folded message => exact History.push_maxPerTarget _ folded message
      | redact folded msgid => exact History.redact_maxPerTarget _ folded msgid
      | renameTarget old new => exact History.renameTarget_maxPerTarget _ old new
    · rw [settled_call sound.attached]
      exact gone
    · rw [settled_call sound.attached]
      exact past
  | @write count batched queued =>
    -- writing a batch does first what settling would do anyway
    have settled_eq : ({ storage with
        history := { storage.history with persist := some (storage.history.queue.drop count) }
        database := storage.database.writeBatch (storage.history.queue.take count) } : Storage).settled =
          storage.settled := by
      rw [settled, settled, Database.writeBatch, Database.writeBatch, Database.writeBatch, ← List.foldl_append]
      exact congrArg (List.foldl _ _) (List.take_append_drop count _)
    refine ⟨?_, rfl, sound.bound, ?_, ?_⟩
    · rw [Mirrored, settled_eq]
      exact ⟨sound.mirrored.suffix, sound.mirrored.short⟩
    · rw [settled_eq]
      exact sound.gone
    · rw [settled_eq]
      exact sound.past

/-! ## Starting on a table -/

/-- The history of a server before it loads messages. -/
def blank (options : HistoryOptions) : History :=
  (History.new options.historyLen options.historyMaxTargets).setMsgidLead options.sid

end Storage

end Ferrixd
