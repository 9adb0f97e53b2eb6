import Ferrixd.Data.Machine
import Ferrixd.Persist.Rings

/-! # The memory bound of a history

However messages are recorded, loaded, redacted, moved and forgotten, the rings stay within their number and length,
and a ring that nobody took a message from holds the newest messages recorded for it. -/

namespace Ferrixd

namespace History

/-! ## Eviction makes room -/

theorem length_erase_le (log : Table String (List StoredMessage)) (folded : String) :
    (log.erase folded).keys.length ≤ log.keys.length := by
  rw [AList.keys_erase]
  exact List.length_erase_le

theorem length_foldl_erase_le (victims : List (String × UInt64)) (log : Table String (List StoredMessage)) :
    (victims.foldl (fun log victim => log.erase victim.1) log).keys.length ≤ log.keys.length := by
  refine foldl_invariant (I := fun later => later.keys.length ≤ log.keys.length) _ victims ?_ log (le_refl _)
  exact fun later victim _ short => (length_erase_le later victim.1).trans short

/-- An eviction takes at least one ring. -/
theorem length_evictOldest {history : History} (some : history.log.keys ≠ []) :
    history.evictOldest.log.keys.length < history.log.keys.length := by
  rw [evictOldest]
  dsimp only
  generalize ages : (history.log.entries.map fun entry => (entry.1, (entry.2.getLast?.map (·.timeMs)).getD 0)) = byAge
  have keys : byAge.map Prod.fst = history.log.keys := by
    rw [← ages, List.map_map]
    rfl
  have sorted := List.mergeSort_perm byAge fun left right => decide (left.2 ≤ right.2)
  generalize byAge.mergeSort (fun left right => decide (left.2 ≤ right.2)) = order at sorted
  cases order with
  | nil =>
    rw [← keys, sorted.symm.eq_nil] at some
    exact absurd rfl some
  | cons oldest order =>
    -- at least one target is evicted, whatever the maximum
    obtain ⟨batch, positive⟩ : ∃ batch, max (history.maxTargets / 32) 1 = batch + 1 :=
      Nat.exists_eq_succ_of_ne_zero (by omega)
    have held : oldest.1 ∈ history.log.keys := by
      rw [← keys]
      exact List.mem_map_of_mem (sorted.subset (List.mem_cons_self ..))
    rw [positive, List.take_succ_cons, List.foldl_cons]
    refine lt_of_le_of_lt (length_foldl_erase_le _ _) ?_
    rw [AList.keys_erase, List.length_erase_of_mem held]
    have length := List.length_pos_of_mem held
    omega

/-- A history within its number of rings has room for a new one, if need be by eviction. -/
theorem length_withRoom {history : History} {folded : String} (absent : folded ∉ history.log)
    (positive : 1 ≤ history.maxTargets) (count : history.log.keys.length ≤ history.maxTargets) :
    (history.withRoom folded).log.keys.length < history.maxTargets := by
  rw [withRoom]
  split
  · rename_i evicts
    have some : history.log.keys ≠ [] := by
      rw [← List.length_pos_iff]
      exact lt_of_lt_of_le positive evicts.1
    exact lt_of_lt_of_le (length_evictOldest some) count
  · rename_i roomy
    exact Nat.lt_of_not_le fun full => roomy ⟨full, absent⟩

theorem length_insert (log : Table String (List StoredMessage)) (folded : String) (ring : List StoredMessage) :
    (log.insert folded ring).keys.length = if folded ∈ log then log.keys.length else log.keys.length + 1 := by
  rw [AList.keys_insert, List.length_cons]
  split
  · rename_i held
    have length := List.length_pos_of_mem (AList.mem_keys.mp held)
    rw [List.length_erase_of_mem (AList.mem_keys.mp held)]
    omega
  · rename_i absent
    rw [List.erase_of_not_mem (fun held => absent (AList.mem_keys.mpr held))]

/-- A push keeps the number of rings. -/
theorem length_push {history : History} (folded : String) (message : StoredMessage)
    (positive : 1 ≤ history.maxTargets) (count : history.log.keys.length ≤ history.maxTargets) :
    (history.push folded message).log.keys.length ≤ history.maxTargets := by
  rw [push_eq, length_insert]
  by_cases held : folded ∈ history.log
  · have same : history.withRoom folded = history := if_neg fun evicts => evicts.2 held
    rw [same, if_pos held]
    exact count
  · have room := length_withRoom held positive count
    split <;> omega

end History

/-! ## What was recorded for a ring -/

/-- What was recorded for a ring since it was created, and whether it was redacted from. -/
structure RingTrace where
  recorded : List StoredMessage
  redacted : Bool

/-- A history with a trace of each of its rings. -/
structure TracedHistory where
  history : History
  traces : String → Option RingTrace

inductive RingOp where
  | record (folded : String) (message : StoredMessage)
  | load (folded : String) (message : StoredMessage)
  | redact (folded msgid : String)
  | renameTarget (old new : String)
  | forget (folded : String)

namespace TracedHistory

/-- The traces after a message for a ring: a ring that is gone, evicted to make room, has none. -/
def pushed (state : TracedHistory) (folded : String) (message : StoredMessage) (key : String) : Option RingTrace :=
  if key = folded then
    match state.traces folded with
    | some trace => some { trace with recorded := trace.recorded ++ [message] }
    | none => some ⟨[message], false⟩
  else if key ∈ (state.history.withRoom folded).log then state.traces key
  else none

/-- A redaction that finds its message marks the ring. -/
def redactedFrom (state : TracedHistory) (folded msgid : String) (key : String) : Option RingTrace :=
  if key = folded ∧ state.history.Finds folded msgid then
    (state.traces folded).map fun trace => { trace with redacted := true }
  else state.traces key

/-- A ring that is moved takes its trace with it, and what was under the new name is gone. -/
def renamed (state : TracedHistory) (old new : String) (key : String) : Option RingTrace :=
  if old ∈ state.history.log then
    if key = new then state.traces old
    else if key = old then none
    else state.traces key
  else state.traces key

def after (state : TracedHistory) : RingOp → TracedHistory
  | .record folded message => ⟨state.history.record folded message, state.pushed folded message⟩
  | .load folded message => ⟨state.history.load folded message, state.pushed folded message⟩
  | .redact folded msgid => ⟨state.history.redact folded msgid, state.redactedFrom folded msgid⟩
  | .renameTarget old new => ⟨state.history.renameTarget old new, state.renamed old new⟩
  | .forget folded => ⟨state.history.forget folded, fun key => if key = folded then none else state.traces key⟩

def machine (maxPerTarget maxTargets : Nat) : Machine TracedHistory RingOp where
  start state := state = ⟨History.new maxPerTarget maxTargets, fun _ => none⟩
  step state op next := next = state.after op

end TracedHistory

/-- A ring within the bound, the end of what was recorded for it unless it was redacted from. -/
inductive Follows (bound : Nat) : Option (List StoredMessage) → Option RingTrace → Prop where
  | absent : Follows bound none none
  | present {ring : List StoredMessage} {trace : RingTrace} (short : ring.length ≤ bound)
      (newest : trace.redacted = false → ring = trace.recorded.rtake bound) : Follows bound (some ring) (some trace)

/-- What every run keeps. -/
structure TracedHistory.Bounded (maxPerTarget maxTargets : Nat) (state : TracedHistory) : Prop where
  perTarget : state.history.maxPerTarget = max maxPerTarget 1
  targets : state.history.maxTargets = max maxTargets 1
  count : state.history.log.keys.length ≤ max maxTargets 1
  follows : ∀ key, Follows (max maxPerTarget 1) (state.history.log.lookup key) (state.traces key)

namespace TracedHistory

variable {maxPerTarget maxTargets : Nat} {state : TracedHistory}

theorem withRoom_lookup (history : History) (target key : String) :
    (history.withRoom target).log.lookup key = history.log.lookup key ∨
      (history.withRoom target).log.lookup key = none := by
  rw [History.withRoom]
  split
  · exact History.lookup_foldl_erase _ history.log key
  · exact .inl rfl

theorem withRoom_maxTargets (history : History) (target : String) :
    (history.withRoom target).maxTargets = history.maxTargets := by
  rw [History.withRoom]
  split <;> rfl

theorem push_lookup (history : History) (folded key : String) (message : StoredMessage) :
    (history.push folded message).log.lookup key =
      if key = folded then some (((history.withRoom folded).ring folded ++ [message]).rtake history.maxPerTarget)
      else (history.withRoom folded).log.lookup key := by
  rw [History.push_eq]
  exact Table.lookup_insert_if _ _ _ _

/-- Room for a ring is made by others. -/
theorem withRoom_ring (history : History) (folded : String) :
    (history.withRoom folded).ring folded = history.ring folded := by
  by_cases held : folded ∈ history.log
  · rw [History.withRoom, if_neg fun evicts => evicts.2 held]
  · have unheld : history.log.lookup folded = none := AList.lookup_eq_none.mpr held
    have gone : (history.withRoom folded).log.lookup folded = none := by
      rcases withRoom_lookup history folded folded with same | gone
      · rw [same, unheld]
      · exact gone
    rw [History.ring, History.ring, gone, unheld]

theorem Bounded.push (bounded : state.Bounded maxPerTarget maxTargets) (folded : String) (message : StoredMessage) :
    Bounded maxPerTarget maxTargets ⟨state.history.push folded message, state.pushed folded message⟩ where
  perTarget := (History.push_maxPerTarget _ _ _).trans bounded.perTarget
  targets := by
    rw [History.push_eq]
    exact (withRoom_maxTargets _ _).trans bounded.targets
  count := by
    have positive : 1 ≤ state.history.maxTargets := by
      rw [bounded.targets]
      exact Nat.le_max_right _ _
    have count := bounded.count
    rw [← bounded.targets] at count ⊢
    exact History.length_push folded message positive count
  follows key := by
    dsimp only
    rw [push_lookup, pushed, withRoom_ring, bounded.perTarget]
    split
    · have before := bounded.follows folded
      have short : ∀ items : List StoredMessage, (items.rtake (max maxPerTarget 1)).length ≤ max maxPerTarget 1 := by
        intro items
        rw [History.length_rtake]
        exact Nat.min_le_left _ _
      rw [History.ring]
      generalize state.history.log.lookup folded = held at before ⊢
      generalize state.traces folded = traced at before ⊢
      cases before with
      | absent => exact .present (short _) fun _ => rfl
      | present _ newest =>
        refine .present (short _) fun untouched => ?_
        rw [Option.getD_some, newest untouched, History.rtake_rtake_append]
    · -- another target is as it was or was evicted for room
      rcases withRoom_lookup state.history folded key with same | gone
      · rw [same]
        split
        · exact bounded.follows key
        · rename_i unheld
          rw [← same, AList.lookup_eq_none.mpr unheld]
          exact .absent
      · rw [gone, if_neg (AList.lookup_eq_none.mp gone)]
        exact .absent

theorem Bounded.redact (bounded : state.Bounded maxPerTarget maxTargets) (folded msgid : String) :
    Bounded maxPerTarget maxTargets (state.after (.redact folded msgid)) := by
  by_cases finds : state.history.Finds folded msgid
  · have stored : ∃ ring, state.history.log.lookup folded = some ring := by
      rw [History.Finds, History.ring] at finds
      cases held : state.history.log.lookup folded with
      | none =>
        rw [held] at finds
        cases finds
      | some ring => exact ⟨ring, rfl⟩
    obtain ⟨ring, stored⟩ := stored
    have found : (ring.any fun message => message.msgid == msgid) = true := by
      rwa [History.Finds, History.ring, stored, Option.getD_some] at finds
    have log : (state.history.redact folded msgid).log =
        state.history.log.insert folded (ring.eraseP fun message => message.msgid == msgid) := by
      simp only [History.redact, stored, found, if_true]
      rfl
    refine ⟨(History.redact_maxPerTarget _ _ _).trans bounded.perTarget, ?_, ?_, fun key => ?_⟩
    · simp only [after, History.redact, stored, found, if_true]
      exact bounded.targets
    · have held : folded ∈ state.history.log := AList.lookup_isSome.mp (by rw [stored]; rfl)
      simp only [after, log, History.length_insert, if_pos held]
      exact bounded.count
    · have before := bounded.follows key
      simp only [after, log, Table.lookup_insert_if, redactedFrom, finds, and_true]
      split
      · rename_i same
        subst same
        rw [stored] at before
        generalize state.traces key = traced at before ⊢
        cases before with
        | present short _ =>
          -- the trace is marked, so nothing is said of its newest entries any more
          refine .present (List.eraseP_sublist.length_le.trans short) fun untouched => ?_
          cases untouched
      · exact before
  · have traces : state.redactedFrom folded msgid = state.traces := by
      funext key
      exact if_neg fun marked => finds marked.2
    have same : state.after (.redact folded msgid) = state := by
      rw [after, History.redact_of_lost finds, traces]
    rw [same]
    exact bounded

theorem Bounded.renameTarget (bounded : state.Bounded maxPerTarget maxTargets) (old new : String) :
    Bounded maxPerTarget maxTargets (state.after (.renameTarget old new)) := by
  cases stored : state.history.log.lookup old with
  | none =>
    have absent : old ∉ state.history.log := AList.lookup_eq_none.mp stored
    have traces : state.renamed old new = state.traces := by
      funext key
      exact if_neg absent
    have log : (state.history.renameTarget old new).log = state.history.log := by
      simp only [History.renameTarget, stored]
      rfl
    refine ⟨bounded.perTarget, bounded.targets, ?_, fun key => ?_⟩
    · simp only [after, log]
      exact bounded.count
    · simp only [after, log, traces]
      exact bounded.follows key
  | some ring =>
    -- the ring replaces one under the new name, if there is any
    have present : old ∈ state.history.log := AList.lookup_isSome.mp (by rw [stored]; rfl)
    have log : (state.history.renameTarget old new).log = (state.history.log.erase old).insert new ring := by
      simp only [History.renameTarget, stored]
      rfl
    refine ⟨bounded.perTarget, bounded.targets, ?_, fun key => ?_⟩
    · have length := List.length_pos_of_mem (AList.mem_keys.mp present)
      have count := bounded.count
      simp only [after, log, History.length_insert, AList.keys_erase, List.length_erase_of_mem (AList.mem_keys.mp present)]
      split <;> omega
    · simp only [after, log, renamed, if_pos present, Table.lookup_insert_if, Table.lookup_erase_if]
      split
      · rw [← stored]
        exact bounded.follows old
      · split
        · exact .absent
        · exact bounded.follows key

theorem Bounded.forget (bounded : state.Bounded maxPerTarget maxTargets) (folded : String) :
    Bounded maxPerTarget maxTargets (state.after (.forget folded)) where
  perTarget := bounded.perTarget
  targets := bounded.targets
  count := (History.length_erase_le _ _).trans bounded.count
  follows key := by
    simp only [after, History.forget, Table.lookup_erase_if]
    split
    · exact .absent
    · exact bounded.follows key

theorem Bounded.after (bounded : state.Bounded maxPerTarget maxTargets) (op : RingOp) :
    (state.after op).Bounded maxPerTarget maxTargets := by
  cases op with
  | record folded message =>
    -- queueing the message leaves the rings alone
    have pushed := bounded.push folded message
    exact ⟨pushed.perTarget, pushed.targets, pushed.count, pushed.follows⟩
  | load folded message => exact bounded.push folded message
  | redact folded msgid => exact bounded.redact folded msgid
  | renameTarget old new => exact bounded.renameTarget old new
  | forget folded => exact bounded.forget folded

theorem new_bounded (maxPerTarget maxTargets : Nat) :
    Bounded maxPerTarget maxTargets ⟨History.new maxPerTarget maxTargets, fun _ => none⟩ where
  perTarget := rfl
  targets := rfl
  count := Nat.zero_le _
  follows _ := .absent

theorem run_bounded (run : (machine maxPerTarget maxTargets).Reachable state) :
    state.Bounded maxPerTarget maxTargets := by
  refine run.invariant (I := fun state => state.Bounded maxPerTarget maxTargets) ?_ ?_
  · rintro initial rfl
    exact new_bounded maxPerTarget maxTargets
  · rintro before op next bounded - rfl
    exact bounded.after op

/-- The ring just written ends with the message. -/
theorem push_last {history : History} (positive : 1 ≤ history.maxPerTarget) (folded : String) (message : StoredMessage) :
    ∃ ring, (history.push folded message).log.lookup folded = some ring ∧ ring.getLast? = some message := by
  obtain ⟨bound, succ⟩ := Nat.exists_eq_succ_of_ne_zero (show history.maxPerTarget ≠ 0 by omega)
  refine ⟨_, by rw [push_lookup, if_pos rfl], ?_⟩
  rw [succ, List.rtake_concat_succ]
  exact List.getLast?_concat

/-- After any run the rings are within their number and length, the next message recorded or loaded ends its ring, and
every ring that was not redacted from is the newest part, as long as the bound lets it be, of what was recorded for it
since it was created. -/
theorem run_memory_bound {maxPerTarget maxTargets : Nat} {state : TracedHistory}
    (run : (machine maxPerTarget maxTargets).Reachable state) :
    state.history.log.keys.length ≤ max maxTargets 1 ∧
    (∀ folded ring, state.history.log.lookup folded = some ring → ring.length ≤ max maxPerTarget 1) ∧
    (∀ folded message,
      (∃ ring, (state.history.record folded message).log.lookup folded = some ring ∧ ring.getLast? = some message) ∧
      ∃ ring, (state.history.load folded message).log.lookup folded = some ring ∧ ring.getLast? = some message) ∧
    ∀ folded ring, state.history.log.lookup folded = some ring →
      ∃ trace, state.traces folded = some trace ∧
        (trace.redacted = false → ring = trace.recorded.rtake (min trace.recorded.length (max maxPerTarget 1))) := by
  have bounded := run_bounded run
  refine ⟨bounded.count, fun folded ring stored => ?_, fun folded message => ?_, fun folded ring stored => ?_⟩
  · have follows := bounded.follows folded
    rw [stored] at follows
    generalize state.traces folded = traced at follows
    cases follows with
    | present short _ => exact short
  · have positive : 1 ≤ state.history.maxPerTarget := by
      rw [bounded.perTarget]
      exact Nat.le_max_right _ _
    exact ⟨push_last positive folded message, push_last positive folded message⟩
  · have follows := bounded.follows folded
    rw [stored] at follows
    generalize state.traces folded = traced at follows ⊢
    cases follows with
    | present short newest =>
      refine ⟨_, rfl, fun untouched => ?_⟩
      rw [newest untouched, List.rtake, List.rtake]
      congr 1
      omega

def denMessage : StoredMessage :=
  ⟨"1AA-1", 10, "alice!~a@host", none, .privMsg, "#den", "hello"⟩

/-- A history of one ring, after messages for two. -/
def evicting : TracedHistory :=
  let state : TracedHistory := ⟨History.new 2 1, fun _ => none⟩
  (state.after (.record "#den" denMessage)).after (.record "#lair" denMessage)

theorem run_memory_bound_evicting :
    evicting.history.log.keys.length ≤ 1 ∧
      ∀ folded ring, evicting.history.log.lookup folded = some ring → ring.length ≤ 2 := by
  have run : (machine 2 1).Reachable evicting :=
    .step (e := .record "#lair" denMessage) (.step (e := .record "#den" denMessage) (.start rfl) trivial rfl) trivial rfl
  have bound := @run_memory_bound 2 1 evicting run
  exact ⟨bound.1, bound.2.1⟩

end TracedHistory

end Ferrixd
