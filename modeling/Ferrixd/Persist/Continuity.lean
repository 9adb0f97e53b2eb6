import Ferrixd.Data.Machine
import Ferrixd.Persist.Rings

/-! # Message ids across restarts

The counter of the message ids is found again from the rows that are loaded.  No id of a stored message is
minted again as long as the rows that a restart loads reach past the counters of these messages. -/

namespace Ferrixd

/-! ## The counter of an id -/

theorem fromStrRadix16_hex16 (value : UInt64) : fromStrRadix16 (hex16 value).toList = some value := by
  obtain ⟨length, digits⟩ := hex16_digits value
  have unsigned : ∀ rest, (hex16 value).toList ≠ '+' :: rest := by
    intro rest signed
    obtain ⟨digit, small, same⟩ := digits '+' (signed ▸ List.mem_cons_self)
    clear signed
    interval_cases digit <;> exact absurd same (by decide)
  have filled : (hex16 value).toList.isEmpty = false := by
    rw [List.isEmpty_eq_false_iff]
    intro empty
    rw [empty] at length
    cases length
  have parsed : parseDigits 16 (hex16 value).toList = some value.toNat := by
    rw [hex16, String.toList_ofList, parseDigits_zeros, parseDigits_toDigits]
  rw [fromStrRadix16]
  · rw [filled, parsed]
    simp [value.toNat_lt]
  · exact unsigned

/-- The counter of a minted id is read back from it. -/
theorem msgidCounter_minted (sid : String) (value : UInt64) :
    msgidCounter ((sid ++ "-") ++ hex16 value) = some value := by
  have clean : ∀ c ∈ (hex16 value).toList, (c != '-') = true := by
    intro c member
    obtain ⟨digit, small, rfl⟩ := (hex16_digits value).2 c member
    clear member
    interval_cases digit <;> decide
  have part : counterPart ((sid ++ "-") ++ hex16 value) = (hex16 value).toList := by
    have shape : ((sid ++ "-") ++ hex16 value).toList = sid.toList ++ '-' :: (hex16 value).toList := by
      simp
    rw [counterPart, shape, List.rtakeWhile, List.reverse_append, List.reverse_cons, List.append_assoc,
      List.takeWhile_append_of_pos fun c member => clean c (List.mem_reverse.mp member)]
    simp
  rw [msgidCounter, part, fromStrRadix16_hex16]

theorem minted_injective {sid : String} {value other : UInt64}
    (same : (sid ++ "-") ++ hex16 value = (sid ++ "-") ++ hex16 other) : value = other := by
  have counters := congrArg msgidCounter same
  rw [msgidCounter_minted, msgidCounter_minted] at counters
  exact Option.some.inj counters

/-! ## The lives of a server -/

/-- A server's history on its database, with the ids it minted for messages that it stored. -/
structure Lifetime where
  history : History
  database : Database
  stored : List String

namespace Lifetime

inductive Action where
  /-- A message of a local client, under an id minted for it. -/
  | post (folded : String) (message : StoredMessage)
  /-- A message of a peer, under the id it came with. -/
  | relay (folded : String) (message : StoredMessage)
  /-- An id for something that is not stored. -/
  | mint
  | redact (folded msgid : String)
  | renameTarget (old new : String)
  | forget (folded : String)
  | write (count : Nat)
  /-- The process ends when some of the queue is written, and another one starts on the database. -/
  | restart (written loadLimit : Nat)

/-- The database that a restart opens. -/
def opened (life : Lifetime) (written : Nat) : Database :=
  (life.database.writeBatch (life.history.queue.take written)).prune

def after (options : HistoryOptions) (life : Lifetime) : Action → Lifetime
  | .post folded message =>
    let (msgid, history) := life.history.nextMsgid
    { life with
      history := history.record folded { message with msgid }
      stored := life.stored ++ [msgid] }
  | .relay folded message => { life with history := life.history.record folded message }
  | .mint => { life with history := life.history.nextMsgid.2 }
  | .redact folded msgid => { life with history := life.history.redact folded msgid }
  | .renameTarget old new => { life with history := life.history.renameTarget old new }
  | .forget folded => { life with history := life.history.forget folded }
  | .write count =>
    { life with
      history := { life.history with persist := some (life.history.queue.drop count) }
      database := life.database.writeBatch (life.history.queue.take count) }
  -- what was queued and not written is lost
  | .restart written loadLimit =>
    { life with
      history := History.startup options ((life.opened written).load loadLimit)
      database := life.opened written }

/-- The first start, on a new database. -/
def first (options : HistoryOptions) (loadLimit : Nat) : Lifetime :=
  ⟨History.startup options (Database.empty.load loadLimit), Database.empty, []⟩

def machine (options : HistoryOptions) : Machine Lifetime Action where
  start life := ∃ loadLimit, life = first options loadLimit
  step life action next := next = life.after options action

/-- The highest counter there is. -/
def lastCounter : UInt64 :=
  18446744073709551615

/-- The steps that keep the counter ahead: no id uses the last counter, and a restart loads a row whose counter is
not below that of any message stored under a minted id. -/
def Ahead (life : Lifetime) : Action → Prop
  | .post _ _ => life.history.nextId ≠ lastCounter
  | .mint => life.history.nextId ≠ lastCounter
  | .relay _ message => msgidCounter message.msgid ≠ some lastCounter
  | .restart written loadLimit =>
    ∀ msgid ∈ life.stored, ∃ row ∈ (life.opened written).window loadLimit, ∃ counter reached,
      msgidCounter msgid = some counter ∧ msgidCounter row.message.msgid = some reached ∧ counter ≤ reached
  | _ => True

/-! ## What the loaded rows say -/

/-- The counters of some rows stay below the last one. -/
def Below (rows : List Row) : Prop :=
  ∀ row ∈ rows, msgidCounter row.message.msgid ≠ some lastCounter

/-- The larger of two counters. -/
theorem max_counter (left right : UInt64) :
    left ≤ max left right ∧ right ≤ max left right ∧ (max left right = left ∨ max left right = right) := by
  have chosen : max left right = if left ≤ right then right else left := rfl
  rw [chosen]
  split
  · rename_i ascending
    exact ⟨ascending, UInt64.le_refl _, .inr rfl⟩
  · rename_i descending
    exact ⟨UInt64.le_refl _, (UInt64.le_total left right).resolve_left descending, .inl rfl⟩

theorem maxCounter_foldl (rows : List Row) (sofar : UInt64) :
    let highest := rows.foldl (fun sofar row =>
      (msgidCounter row.message.msgid).elim sofar fun counter => max sofar counter) sofar
    sofar ≤ highest ∧
      (∀ row ∈ rows, ∀ counter, msgidCounter row.message.msgid = some counter → counter ≤ highest) ∧
      (highest = sofar ∨ ∃ row ∈ rows, msgidCounter row.message.msgid = some highest) := by
  induction rows generalizing sofar with
  | nil => exact ⟨UInt64.le_refl _, by simp, .inl rfl⟩
  | cons row rest ih =>
    -- what the first row makes of the highest counter so far
    have first : ∀ next, next = (msgidCounter row.message.msgid).elim sofar (fun counter => max sofar counter) →
        sofar ≤ next ∧ (∀ counter, msgidCounter row.message.msgid = some counter → counter ≤ next) ∧
          (next = sofar ∨ msgidCounter row.message.msgid = some next) := by
      rintro next rfl
      cases msgidCounter row.message.msgid with
      | none => exact ⟨UInt64.le_refl _, by simp, .inl rfl⟩
      | some counter =>
        obtain ⟨left, right, chosen⟩ := max_counter sofar counter
        refine ⟨left, ?_, ?_⟩
        · rintro _ ⟨⟩
          exact right
        · rcases chosen with same | same
          · exact .inl same
          · exact .inr (congrArg some same.symm)
    dsimp only
    rw [List.foldl_cons]
    generalize (msgidCounter row.message.msgid).elim sofar (fun counter => max sofar counter) = next at first
    obtain ⟨grows, counted, chosen⟩ := first next rfl
    obtain ⟨above, rest_above, attained⟩ := ih next
    refine ⟨UInt64.le_trans grows above, ?_, ?_⟩
    · intro other member counter reads
      rcases List.mem_cons.mp member with rfl | member
      · exact UInt64.le_trans (counted counter reads) above
      · exact rest_above other member counter reads
    · rcases attained with same | ⟨other, member, reads⟩
      · rw [same]
        rcases chosen with none | reads
        · exact .inl none
        · exact .inr ⟨row, List.mem_cons_self, reads⟩
      · exact .inr ⟨other, List.mem_cons_of_mem _ member, reads⟩

/-- The highest counter of the rows that are loaded is at least each of theirs, and one of theirs if it is not zero. -/
theorem load_maxCounter (db : Database) (loadLimit : Nat) :
    (∀ row ∈ db.window loadLimit, ∀ counter, msgidCounter row.message.msgid = some counter →
      counter ≤ (db.load loadLimit).maxCounter) ∧
      ((db.load loadLimit).maxCounter = 0 ∨
        ∃ row ∈ db.window loadLimit, msgidCounter row.message.msgid = some (db.load loadLimit).maxCounter) := by
  obtain ⟨-, above, attained⟩ := maxCounter_foldl (db.window loadLimit) 0
  exact ⟨above, attained⟩

theorem load_below {db : Database} (below : Below db.rows) (loadLimit : Nat) :
    (db.load loadLimit).maxCounter ≠ lastCounter := by
  rcases (load_maxCounter db loadLimit).2 with zero | ⟨row, member, reached⟩
  · rw [zero]
    decide
  · intro last
    exact below row ((History.rtake_suffix loadLimit db.rows).mem member) (last ▸ reached)

/-- A counter that is not the last one has a next one. -/
theorem nextId_succ {counter : UInt64} (room : counter ≠ lastCounter) : (counter + 1).toNat = counter.toNat + 1 := by
  have apart : counter.toNat ≠ 18446744073709551615 := fun same => room (UInt64.toNat_inj.mp same)
  have bound := counter.toNat_lt
  have unit : (1 : UInt64).toNat = 1 := rfl
  rw [UInt64.toNat_add, unit]
  exact Nat.mod_eq_of_lt (by omega)

/-- Without the last counter, the counter that is found is past all that are loaded. -/
theorem nextId_toNat {loaded : Loaded} (below : loaded.maxCounter ≠ lastCounter) :
    (max loaded.nextId 1).toNat = loaded.maxCounter.toNat + 1 := by
  have next : loaded.nextId.toNat = loaded.maxCounter.toNat + 1 := nextId_succ below
  rcases max_counter loaded.nextId 1 with ⟨-, -, same | one⟩
  · rw [same, next]
  · -- the counter is one only after zero
    have least := (max_counter loaded.nextId 1).1
    rw [one, UInt64.le_iff_toNat_le, next] at least
    have unit : (1 : UInt64).toNat = 1 := rfl
    rw [one]
    omega

/-! ## Every step keeps the counter ahead -/

/-- Whether an operation stores an id below the last counter. -/
def OpBelow : PersistOp → Prop
  | .store _ message => msgidCounter message.msgid ≠ some lastCounter
  | _ => True

theorem below_apply {db : Database} (below : Below db.rows) {op : PersistOp} (opBelow : OpBelow op) :
    Below (db.apply op).rows := by
  cases op with
  | store folded message =>
    intro row member
    rcases List.mem_append.mp member with old | new
    · exact below row old
    · rw [List.mem_singleton.mp new]
      exact opBelow
  | delete folded msgid => exact fun row member => below row (List.mem_of_mem_filter member)
  | rename old new =>
    intro row member
    obtain ⟨before, inRows, rfl⟩ := List.mem_map.mp member
    split
    · exact below before inRows
    · exact below before inRows

theorem below_writeBatch {db : Database} (below : Below db.rows) {batch : List PersistOp}
    (opsBelow : ∀ op ∈ batch, OpBelow op) : Below (db.writeBatch batch).rows :=
  foldl_invariant (I := fun db : Database => Below db.rows) Database.apply batch
    (fun _ op member below => below_apply below (opsBelow op member)) db below

/-- What an operation on the history leaves alone: the ids, and the queue but for one more operation. -/
structure Kept (history next : History) (op : PersistOp) : Prop where
  nextId : next.nextId = history.nextId
  msgidLead : next.msgidLead = history.msgidLead
  queue : ∀ queued ∈ next.queue, queued ∈ history.queue ∨ queued = op

theorem kept_enqueue {history next : History} (nextId : next.nextId = history.nextId)
    (msgidLead : next.msgidLead = history.msgidLead) (persist : next.persist = history.persist) (op : PersistOp) :
    Kept history (next.enqueue op) op where
  nextId := nextId
  msgidLead := msgidLead
  queue := by
    rw [History.queue, History.queue, History.enqueue, persist]
    cases history.persist with
    | none => simp
    | some queue => simp

theorem kept_record (history : History) (folded : String) (message : StoredMessage) :
    Kept history (history.record folded message) (.store folded message) := by
  refine kept_enqueue ?_ ?_ (history.push_persist folded message) _
  · rw [History.push_eq, History.withRoom]
    split <;> rfl
  · rw [History.push_eq, History.withRoom]
    split <;> rfl

theorem kept_redact (history : History) (folded msgid : String) :
    Kept history (history.redact folded msgid) (.delete folded msgid) := by
  have same : Kept history history (.delete folded msgid) := ⟨rfl, rfl, fun _ member => .inl member⟩
  rw [History.redact]
  split
  · exact same
  · split
    · refine kept_enqueue ?_ ?_ ?_ _ <;> rfl
    · exact same

/-- The ids minted for stored messages are behind the counter, and no stored id is at the last one. -/
structure Sound (options : HistoryOptions) (life : Lifetime) : Prop where
  lead : life.history.msgidLead = options.sid ++ "-"
  stored : ∀ msgid ∈ life.stored, ∃ counter : UInt64, msgid = (options.sid ++ "-") ++ hex16 counter ∧
    counter.toNat < life.history.nextId.toNat
  below : Below life.database.rows
  queued : ∀ op ∈ life.history.queue, OpBelow op

variable {options : HistoryOptions} {life : Lifetime}

theorem Sound.kept (sound : life.Sound options) {next : History} {op : PersistOp} (kept : Kept life.history next op)
    (opBelow : OpBelow op) : ({ life with history := next } : Lifetime).Sound options where
  lead := kept.msgidLead.trans sound.lead
  stored := by
    rw [kept.nextId]
    exact sound.stored
  below := sound.below
  queued := by
    intro queued member
    rcases kept.queue queued member with old | rfl
    · exact sound.queued queued old
    · exact opBelow

theorem Sound.opened (sound : life.Sound options) (written : Nat) : Below (life.opened written).rows := by
  have batch : Below (life.database.writeBatch (life.history.queue.take written)).rows :=
    below_writeBatch sound.below fun op member => sound.queued op (List.mem_of_mem_take member)
  exact fun row member => batch row (List.mem_of_mem_filter member)

/-- Minting an id. -/
theorem Sound.mint (sound : life.Sound options) (room : life.history.nextId ≠ lastCounter) :
    ({ life with history := life.history.nextMsgid.2, stored := life.stored ++ [life.history.nextMsgid.1] } :
      Lifetime).Sound options where
  lead := sound.lead
  stored := by
    intro msgid member
    have grown : life.history.nextMsgid.2.nextId.toNat = life.history.nextId.toNat + 1 := nextId_succ room
    rw [grown]
    rcases List.mem_append.mp member with old | new
    · obtain ⟨counter, shape, behind⟩ := sound.stored msgid old
      exact ⟨counter, shape, Nat.lt_succ_of_lt behind⟩
    · refine ⟨life.history.nextId, ?_, Nat.lt_succ_self _⟩
      rw [List.mem_singleton.mp new, ← sound.lead]
      rfl
  below := sound.below
  queued := sound.queued

theorem startup_nextId (loaded : Loaded) : (History.startup options loaded).nextId = max loaded.nextId 1 :=
  rfl

theorem startup_lead (loaded : Loaded) : (History.startup options loaded).msgidLead = options.sid ++ "-" := by
  refine foldl_invariant (I := fun history : History => history.msgidLead = options.sid ++ "-")
    (fun history entry => history.load entry.1 entry.2) loaded.messages ?_
    ((History.new options.historyLen options.historyMaxTargets).setMsgidLead options.sid) rfl
  intro history entry _ same
  rw [← same, History.load, History.push_eq, History.withRoom]
  split <;> rfl

theorem Sound.restart (sound : life.Sound options) {written loadLimit : Nat}
    (ahead : life.Ahead (.restart written loadLimit)) :
    (life.after options (.restart written loadLimit)).Sound options where
  lead := startup_lead _
  stored := by
    intro msgid member
    obtain ⟨counter, shape, -⟩ := sound.stored msgid member
    obtain ⟨row, loaded, _, reached, reads, reachedReads, behind⟩ := ahead msgid member
    rw [shape, msgidCounter_minted] at reads
    cases reads
    refine ⟨counter, shape, ?_⟩
    have highest := (load_maxCounter (life.opened written) loadLimit).1 row loaded reached reachedReads
    have total := UInt64.le_iff_toNat_le.mp (UInt64.le_trans behind highest)
    have next := nextId_toNat (load_below (sound.opened written) loadLimit)
    rw [Lifetime.after, startup_nextId, next]
    omega
  below := sound.opened written
  queued := fun op member => absurd member List.not_mem_nil

theorem Sound.step (sound : life.Sound options) {action : Action} (ahead : life.Ahead action) :
    (life.after options action).Sound options := by
  cases action with
  | post folded message =>
    -- the counter wraps after its last value
    have room : life.history.nextId ≠ lastCounter := ahead
    have fresh : OpBelow (.store folded { message with msgid := life.history.nextMsgid.1 }) := by
      rw [OpBelow, History.nextMsgid, sound.lead, msgidCounter_minted]
      exact fun last => room (Option.some.inj last)
    exact (sound.mint room).kept (kept_record life.history.nextMsgid.2 folded _) fresh
  | relay folded message => exact sound.kept (kept_record life.history folded message) ahead
  | mint =>
    have minted := sound.mint ahead
    exact ⟨minted.lead, fun msgid member => minted.stored msgid (List.mem_append_left _ member), minted.below,
      minted.queued⟩
  | redact folded msgid => exact sound.kept (kept_redact life.history folded msgid) trivial
  | renameTarget old new =>
    have kept : Kept life.history (life.history.renameTarget old new) (.rename old new) := by
      refine kept_enqueue ?_ ?_ ?_ _ <;> rfl
    exact sound.kept kept trivial
  | forget folded =>
    have kept : Kept life.history (life.history.forget folded) (.rename "" "") :=
      ⟨rfl, rfl, fun _ member => .inl member⟩
    exact sound.kept kept trivial
  | write count =>
    refine ⟨sound.lead, sound.stored, ?_, fun op member => sound.queued op (List.mem_of_mem_drop member)⟩
    exact below_writeBatch sound.below fun op member => sound.queued op (List.mem_of_mem_take member)
  | restart written loadLimit => exact sound.restart ahead

theorem first_sound (options : HistoryOptions) (loadLimit : Nat) : (first options loadLimit).Sound options where
  lead := startup_lead _
  stored := fun _ member => absurd member List.not_mem_nil
  below := fun _ member => absurd member List.not_mem_nil
  queued := fun _ member => absurd member List.not_mem_nil

/-- In a guarded run the next id is none that was minted for a stored message, and no restart overflows the
counter. -/
theorem run_fresh {options : HistoryOptions} {life : Lifetime} (run : (machine options).GuardedRun Ahead life) :
    life.history.nextMsgid.1 ∉ life.stored ∧
      ∀ written loadLimit, ((life.opened written).load loadLimit).maxCounter.toNat + 1 < 2 ^ 64 := by
  have sound : life.Sound options := by
    refine run.invariant (I := fun life => life.Sound options) ?_ ?_
    · rintro life ⟨loadLimit, rfl⟩
      exact first_sound options loadLimit
    · rintro life action _ sound ahead rfl
      exact sound.step ahead
  constructor
  · intro member
    obtain ⟨counter, shape, behind⟩ := sound.stored _ member
    rw [History.nextMsgid, sound.lead] at shape
    rw [minted_injective shape] at behind
    exact Nat.lt_irrefl _ behind
  · intro written loadLimit
    have below := load_below (sound.opened written) loadLimit
    have bound := ((life.opened written).load loadLimit).nextId.toNat_lt
    rw [Loaded.nextId, nextId_succ below] at bound
    exact bound

/-! ## Ids that come again -/

/-- Options of a small store. -/
def smallOptions : HistoryOptions :=
  ⟨2, 8, "1AA"⟩

/-- A message to post. -/
def greeting : StoredMessage :=
  ⟨"", 1000, "alice!ident@host.example", none, .privMsg, "#lean", "hello"⟩

/-- The life of a server that stored a message, redacted it, and restarted. -/
def redactedLife : Lifetime :=
  let posted := (first smallOptions 8).after smallOptions (.post "#lean" greeting)
  let redacted := posted.after smallOptions (.redact "#lean" "1AA-0000000000000001")
  redacted.after smallOptions (.restart 2 8)

/-- The id of a redacted message is minted again after a restart. -/
theorem redacted_id_returns :
    ∃ life, (machine smallOptions).Reachable life ∧ life.history.nextMsgid.1 ∈ life.stored := by
  refine ⟨redactedLife, ?_, by decide⟩
  exact .step (e := .restart 2 8) (.step (e := .redact "#lean" "1AA-0000000000000001")
    (.step (e := .post "#lean" greeting) (.start ⟨8, rfl⟩) trivial rfl) trivial rfl) trivial rfl

/-- The life of a server that stored a message and restarted. -/
def postedLife : Lifetime :=
  ((first smallOptions 8).after smallOptions (.post "#lean" greeting)).after smallOptions (.restart 1 8)

/-- The next id after a restart that loads the message. -/
theorem run_fresh_posted :
    postedLife.history.nextMsgid.1 ∉ postedLife.stored ∧
      ∀ written loadLimit, ((postedLife.opened written).load loadLimit).maxCounter.toNat + 1 < 2 ^ 64 := by
  refine @run_fresh smallOptions _ (.step (e := .restart 1 8)
    (.step (e := .post "#lean" greeting) (.start ⟨8, rfl⟩) ?_ rfl) ?_ rfl)
  · exact show (_ : UInt64) ≠ _ by decide
  · intro msgid member
    have only : msgid = "1AA-0000000000000001" := List.mem_singleton.mp member
    rw [only]
    exact ⟨⟨1, "#lean", { greeting with msgid := "1AA-0000000000000001" }⟩, by decide, 1, 1, by decide, by decide,
      by decide⟩

end Lifetime

end Ferrixd
