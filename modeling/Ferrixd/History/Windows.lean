import Ferrixd.Data.Ordered
import Ferrixd.History.Query
import Ferrixd.Persist

/-! # Windows of a history

What a query between two times returns, and that paging through a ring visits every visible message once. -/

namespace Ferrixd

/-! ## Messages in the order of time -/

theorem partitionPoint_eq {α : Type} {test : α → Bool} {items : List α} (partitioned : Partitioned test items) :
    partitionPoint test items = (items.filter test).length := by
  rw [partitionPoint, partitioned.takeWhile]

/-- No message is older than one before it. -/
def InOrder (msgs : List StoredMessage) : Prop :=
  msgs.Pairwise fun earlier later => earlier.timeMs ≤ later.timeMs

theorem InOrder.before {msgs : List StoredMessage} (inOrder : InOrder msgs) (time : UInt64) :
    Partitioned (fun message => decide (message.timeMs < time)) msgs := by
  refine inOrder.imp fun {earlier later} order early => ?_
  rw [decide_eq_true_eq] at early ⊢
  exact UInt64.lt_of_le_of_lt order early

theorem InOrder.upTo {msgs : List StoredMessage} (inOrder : InOrder msgs) (time : UInt64) :
    Partitioned (fun message => decide (message.timeMs ≤ time)) msgs := by
  refine inOrder.imp fun {earlier later} order early => ?_
  rw [decide_eq_true_eq] at early ⊢
  exact UInt64.le_trans order early

/-- The messages at a time. -/
def atTime (msgs : List StoredMessage) (time : UInt64) : List StoredMessage :=
  msgs.filter fun message => message.timeMs == time

/-- The messages strictly between two times. -/
def window (msgs : List StoredMessage) (a b : UInt64) : List StoredMessage :=
  msgs.filter fun message => a < message.timeMs && message.timeMs < b

/-- The messages before a time, those at it, those up to another time, and the rest. -/
theorem InOrder.parts {msgs : List StoredMessage} (inOrder : InOrder msgs) {a b : UInt64} (less : a < b) :
    (msgs.filter fun message => message.timeMs < a) ++ (atTime msgs a ++ window msgs a b) =
      msgs.filter fun message => message.timeMs < b := by
  have beforeA : ∀ message ∈ msgs, (decide (message.timeMs < a) && decide (message.timeMs < b)) =
      decide (message.timeMs < a) := by
    intro message _
    rw [Bool.and_eq_left_iff_imp, decide_eq_true_eq, decide_eq_true_eq]
    exact fun early => UInt64.lt_trans early less
  have atA : ∀ message ∈ msgs, (decide (message.timeMs ≤ a) && (!decide (message.timeMs < a) &&
      decide (message.timeMs < b))) = (message.timeMs == a) := by
    intro message _
    rw [Bool.eq_iff_iff]
    simp only [Bool.and_eq_true, Bool.not_eq_true', decide_eq_true_eq, decide_eq_false_iff_not, beq_iff_eq,
      UInt64.le_iff_toNat_le, UInt64.lt_iff_toNat_lt, ← UInt64.toNat_inj] at less ⊢
    omega
  have afterA : ∀ message ∈ msgs, (!decide (message.timeMs ≤ a) && (!decide (message.timeMs < a) &&
      decide (message.timeMs < b))) = (decide (a < message.timeMs) && decide (message.timeMs < b)) := by
    intro message _
    rw [Bool.eq_iff_iff]
    simp only [Bool.and_eq_true, Bool.not_eq_true', decide_eq_true_eq, decide_eq_false_iff_not,
      UInt64.le_iff_toNat_le, UInt64.lt_iff_toNat_lt]
    omega
  -- first cut off at b, then what is left at a: before, at and after it
  have early : InOrder (msgs.filter fun message => decide (message.timeMs < b)) := inOrder.filter _
  have first := (early.before a).append
  have late : InOrder ((msgs.filter fun message => decide (message.timeMs < b)).filter
      fun message => !decide (message.timeMs < a)) := early.filter _
  rw [← (late.upTo a).append] at first
  simp only [List.filter_filter] at first
  rw [List.filter_congr beforeA, List.filter_congr atA, List.filter_congr afterA] at first
  exact first

/-! ## Between two times -/

theorem snapshot_eq (history : History) (target : String) (events : Bool) :
    history.snapshot target events = (history.ring target).filter fun message => events || message.kind.isMessage := by
  rw [History.snapshot, History.ring]
  cases history.log.lookup target <;> rfl

/-- Whatever stands at the index of the first time is left out. -/
theorem between_eq (history : History) (target : String) {a b : UInt64} (less : a < b) (limit : Nat) (events : Bool)
    (inOrder : InOrder (history.snapshot target events)) :
    history.between target (.timestamp a) (.timestamp b) limit events =
      (atTime (history.snapshot target events) a ++ window (history.snapshot target events) a b).tail.take limit := by
  generalize visible : history.snapshot target events = msgs at inOrder
  have lower : resolveIndex msgs (.timestamp a) = some (msgs.filter fun message => message.timeMs < a).length :=
    congrArg some (partitionPoint_eq (inOrder.before a))
  have upper : resolveIndex msgs (.timestamp b) = some (msgs.filter fun message => message.timeMs < b).length :=
    congrArg some (partitionPoint_eq (inOrder.before b))
  have whole := (inOrder.before b).append
  have parts := inOrder.parts less
  generalize (msgs.filter fun message => decide (message.timeMs < a)) = early at lower parts
  generalize atTime msgs a ++ window msgs a b = later at parts ⊢
  generalize (msgs.filter fun message => !decide (message.timeMs < b)) = rest at whole
  rw [← parts] at upper whole
  have length : msgs.length = early.length + later.length + rest.length := by
    rw [← whole, List.length_append, List.length_append]
  have order : early.length ≤ early.length + later.length := Nat.le_add_right _ _
  have within : early.length + later.length ≤ msgs.length := by omega
  have front : msgs.take (early.length + later.length) = early ++ later := by
    rw [← whole]
    exact List.take_left' (List.length_append ..)
  rw [List.length_append] at upper
  simp only [History.between, visible, lower, upper, min_eq_left order, max_eq_right order, min_eq_left within]
  -- the window begins one after the first message at a, which it drops
  rw [front, takeFirst]
  split
  · rename_i empty
    have short : later.length ≤ 1 := by omega
    rw [List.eq_nil_of_length_eq_zero (l := later.tail) (by rw [List.length_tail]; omega), List.take_nil]
  · rename_i nonempty
    have next : early.length + 1 ≤ msgs.length := by omega
    rw [min_eq_left next, List.drop_append, List.drop_eq_nil_of_le (Nat.le_succ _), List.nil_append,
      Nat.add_sub_cancel_left, List.drop_one]

/-- The query gives the messages strictly between the times, as many as wanted, and so those that the queries after the
one time and before the other share. -/
def BetweenExact (history : History) (target : String) (a b : UInt64) (limit : Nat) (events : Bool) : Prop :=
  let answer := history.between target (.timestamp a) (.timestamp b) limit events
  let unlimited := (history.snapshot target events).length
  answer = (window (history.snapshot target events) a b).take limit ∧
    answer = ((history.after target (.timestamp a) unlimited events).filter fun message =>
      decide (message ∈ history.before target (.timestamp b) unlimited events)).take limit

/-- What both queries return lies strictly between the times. -/
theorem window_eq_shared (history : History) (target : String) (a b : UInt64) (events : Bool) :
    ((history.after target (.timestamp a) (history.snapshot target events).length events).filter fun message =>
      decide (message ∈ history.before target (.timestamp b) (history.snapshot target events).length events)) =
      window (history.snapshot target events) a b := by
  generalize visible : history.snapshot target events = msgs
  have after : history.after target (.timestamp a) msgs.length events =
      msgs.filter fun message => a < message.timeMs := by
    rw [History.after, visible, takeFirst, filterAfter]
    exact List.take_of_length_le (List.length_filter_le _ _)
  have before : history.before target (.timestamp b) msgs.length events =
      msgs.filter fun message => message.timeMs < b := by
    rw [History.before, visible, takeLast, filterBefore, if_neg]
    exact Nat.not_lt.mpr (List.length_filter_le _ _)
  rw [after, before, List.filter_filter, window]
  apply List.filter_congr
  intro message member
  rw [Bool.and_comm, Bool.eq_iff_iff]
  simp [List.mem_filter, member]

/-- A query between two times is exact when a single message stands at the first of them, when there is nothing from
it on, and where copies of one message hide that the first message after it is left out. -/
theorem between_exact_iff (history : History) (target : String) {a b : UInt64} (less : a < b) (limit : Nat)
    (events : Bool) (inOrder : InOrder (history.ring target)) :
    BetweenExact history target a b limit events ↔
      limit = 0 ∨ (atTime (history.snapshot target events) a).length = 1 ∨
        (atTime (history.snapshot target events) a = [] ∧
          (window (history.snapshot target events) a b = [] ∨
            ∃ copy, (window (history.snapshot target events) a b).take (limit + 1) =
              List.replicate (limit + 1) copy)) := by
  have visible : InOrder (history.snapshot target events) := by
    rw [snapshot_eq]
    exact inOrder.filter _
  rw [BetweenExact, window_eq_shared, and_self, between_eq history target less limit events visible]
  have outside : ∀ message ∈ atTime (history.snapshot target events) a,
      message ∉ window (history.snapshot target events) a b := by
    intro message atA inside
    rw [atTime, List.mem_filter, beq_iff_eq] at atA
    rw [window, List.mem_filter, Bool.and_eq_true, decide_eq_true_eq, atA.2] at inside
    exact absurd inside.2.1 (UInt64.lt_irrefl a)
  generalize atTime (history.snapshot target events) a = first at outside
  generalize window (history.snapshot target events) a b = inside at outside
  cases limit with
  | zero => exact iff_of_true rfl (.inl rfl)
  | succ limit =>
    cases first with
    | nil =>
      cases inside with
      | nil => simp
      | cons message inside =>
        simp only [List.nil_append, List.tail_cons, take_tail_iff]
        simp
    | cons message first =>
      cases first with
      | nil => simp
      | cons other first =>
        -- the second of several messages at the time is returned
        refine iff_of_false ?_ (by simp)
        intro same
        have returned : other ∈ (other :: (first ++ inside)).take (limit + 1) := by
          rw [List.take_succ_cons]
          exact List.mem_cons_self ..
        rw [List.cons_append, List.tail_cons, List.cons_append] at same
        rw [same] at returned
        exact outside other (List.mem_cons_of_mem _ (List.mem_cons_self ..)) (List.mem_of_mem_take returned)

/-- A message of a channel, named by its time. -/
def spokenAt (time : UInt64) : StoredMessage :=
  ⟨hex16 time, time, "alice!~a@host", none, .privMsg, "#c", "hello"⟩

def spokenHistory : History :=
  ((History.new 100 1000).record "#c" (spokenAt 10)).record "#c" (spokenAt 20)

/-- Between two times at which nothing was said, the first message is missing. -/
theorem between_misses_first :
    InOrder (spokenHistory.ring "#c") ∧ ¬ BetweenExact spokenHistory "#c" 5 25 50 true := by
  constructor
  · rw [InOrder]
    decide +kernel
  · rw [BetweenExact]
    decide +kernel

theorem between_exact_spoken :
    BetweenExact spokenHistory "#c" 10 25 50 true :=
  (@between_exact_iff spokenHistory "#c" 10 25 (by decide) 50 true (by rw [InOrder]; decide +kernel)).mpr
    (.inr (.inl (by decide +kernel)))

end Ferrixd
