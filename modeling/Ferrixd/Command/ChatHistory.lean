import Ferrixd.Clock
import Ferrixd.Data.Ordered
import Ferrixd.History.Query
import Ferrixd.State.Session

/-! # CHATHISTORY TARGETS

A client asks which of its channels and conversations were active in a window. -/

namespace Ferrixd

/-- Parse a point of a history. -/
def parseSelector (token : String) : Except Overflow (Option Selector) :=
  if token = "*" then .ok (some .latest)
  else match stripLead? token "timestamp=" with
    | some ts => (parseServerTime ts).map fun read => read.map .timestamp
    | none => .ok ((stripLead? token "msgid=").map .msgId)

/-- A listed target: its key, what the client is told, and when it was last active. -/
structure ListedTarget where
  key : String
  name : String
  timeMs : UInt64
  deriving DecidableEq

namespace Server

/-- What a client is told a target is, if the client is to know of it: its channels by their names, its conversations
by the other party. -/
def targetName (s : Server) (id : UInt64) (key : String) : Option String :=
  let mine := (s.entry id).channels
  let me := s.fold (s.entry id).nick
  match pairParties key with
  -- a private conversation is listed to its two parties, a channel to its members
  | some (a, b) =>
    if a = me ∨ b = me then
      let partner := if a = me then b else a
      match s.findClient partner with
      | some client => some (s.entry client).nick
      | none => some (((s.findRemoteUser partner).map (·.nick)).getD partner)
    else none
  | none => if key ∈ mine then some (((s.findChannel key).map (·.name)).getD key) else none

/-- The active targets that the client is told of. -/
def listedTargets (s : Server) (id : UInt64) (after before : Selector) (limit : Nat) : List ListedTarget :=
  (s.fx.history.targets after before limit).filterMap fun entry =>
    (s.targetName id entry.1).map fun name => ⟨entry.1, name, entry.2⟩

def chathistoryTargets (s : Server) (id : UInt64) (args : List String) : Except Overflow Server := do
  let after ← args[0]?.elim (pure none) parseSelector
  let before ← args[1]?.elim (pure none) parseSelector
  let limit := (args[2]?.bind parseU64).getD 50
  let listed := s.listedTargets id (after.getD (.timestamp 0)) (before.getD .latest) (max 1 (min limit.toNat 100))
  return listed.foldl
    (fun s target => s.send id (Line.server s.info.name |>.command "CHATHISTORY" |>.param "TARGETS"
      |>.param target.name |>.param (formatServerTime target.timeMs)).build) s

/-! ## What the client may know -/

/-- Whether a target is a channel that the client is in, or a conversation of its own. -/
def sees (s : Server) (id : UInt64) (key : String) : Bool :=
  let me := s.fold (s.entry id).nick
  match pairParties key with
  | some (a, b) => a = me || b = me
  | none => key ∈ (s.entry id).channels

/-- A client is told of the targets that it sees, and of no others. -/
theorem targetName_isSome (s : Server) (id : UInt64) (key : String) : (s.targetName id key).isSome = s.sees id key := by
  rw [targetName, sees]
  cases pairParties key with
  | none =>
    dsimp only
    split
    · rename_i mine
      exact (decide_eq_true mine).symm
    · rename_i other
      exact (decide_eq_false other).symm
  | some parties =>
    obtain ⟨a, b⟩ := parties
    dsimp only
    rw [← Bool.decide_or]
    split
    · rename_i party
      rw [decide_eq_true party]
      split <;> rfl
    · rename_i stranger
      exact (decide_eq_false stranger).symm

end Server

/-- Whether a message counts in a window. -/
def inWindow (after before : Selector) (message : StoredMessage) : Bool :=
  let lo := (selectorTime after).getD 0
  let hi := (selectorTime before).getD (UInt64.ofNat (2 ^ 64 - 1))
  min lo hi ≤ message.timeMs ∧ message.timeMs ≤ max lo hi ∧ message.kind.isMessage

/-- When a ring was last active in a window, if it was. -/
def lastActive (after before : Selector) (ring : List StoredMessage) : Option UInt64 :=
  (ring.reverse.find? (inWindow after before)).map (·.timeMs)

/-- Everybody's active targets. -/
def History.active (history : History) (after before : Selector) : List (String × UInt64) :=
  history.log.entries.filterMap fun entry => (lastActive after before entry.2).map fun time => (entry.1, time)

/-- The order of a reply: the most recent first. -/
def newestFirst (left right : String × UInt64) : Bool :=
  right.2 ≤ left.2

theorem newestFirst_trans (a b c : String × UInt64) (first : newestFirst a b = true) (second : newestFirst b c = true) :
    newestFirst a c = true := by
  rw [newestFirst, decide_eq_true_eq] at *
  exact UInt64.le_trans second first

theorem newestFirst_total (a b : String × UInt64) : (newestFirst a b || newestFirst b a) = true := by
  rw [newestFirst, newestFirst, ← Bool.decide_or, decide_eq_true_eq]
  exact (UInt64.le_total b.2 a.2)

/-- The code cuts everybody's active targets to the limit. -/
theorem targets_eq (history : History) (after before : Selector) (limit : Nat) :
    history.targets after before limit = ((history.active after before).mergeSort newestFirst).take limit := by
  rw [History.targets, History.active]
  simp only [lastActive, Option.map_map]
  rfl

namespace Server

/-- The answer for the client alone: of the active targets that it sees, the most recently active ones. -/
def ownTargets (s : Server) (id : UInt64) (after before : Selector) (limit : Nat) : List (String × UInt64) :=
  (((s.fx.history.active after before).filter fun target => s.sees id target.1).mergeSort newestFirst).take limit

/-- The most recently active targets of everybody, as many as the reply may have, are all seen by the client, or else
none beyond them is. -/
def Unobstructed (s : Server) (id : UInt64) (after before : Selector) (limit : Nat) : Prop :=
  let recent := (s.fx.history.active after before).mergeSort newestFirst
  (∀ target ∈ recent.take limit, s.sees id target.1 = true) ∨ ∀ target ∈ recent.drop limit, s.sees id target.1 = false

theorem listed_eq (s : Server) (id : UInt64) (after before : Selector) (limit : Nat) :
    (s.listedTargets id after before limit).map (fun target => (target.key, target.timeMs)) =
      (s.fx.history.targets after before limit).filter fun target => s.sees id target.1 := by
  rw [listedTargets]
  induction s.fx.history.targets after before limit with
  | nil => rfl
  | cons target targets ih =>
    have told := s.targetName_isSome id target.1
    cases name : s.targetName id target.1 with
    | none =>
      rw [name] at told
      rw [List.filterMap_cons, name, List.filter_cons, ← told]
      exact ih
    | some shown =>
      rw [name] at told
      rw [List.filterMap_cons, name, List.filter_cons, ← told]
      exact congrArg (target :: ·) ih

/-- No active target of the client that is left out was active after one that is listed. -/
theorem ownTargets_recent (s : Server) (id : UInt64) (after before : Selector) (limit : Nat) :
    (s.ownTargets id after before limit).length =
        min limit ((s.fx.history.active after before).filter fun target => s.sees id target.1).length ∧
      ∃ others, (s.ownTargets id after before limit ++ others).Perm
          ((s.fx.history.active after before).filter fun target => s.sees id target.1) ∧
        ∀ listed ∈ s.ownTargets id after before limit, ∀ other ∈ others, other.2 ≤ listed.2 := by
  rw [ownTargets]
  generalize (s.fx.history.active after before).filter (fun target => s.sees id target.1) = own
  have ordered := List.pairwise_mergeSort newestFirst_trans newestFirst_total own
  refine ⟨by rw [List.length_take, List.length_mergeSort], (own.mergeSort newestFirst).drop limit, ?_, ?_⟩
  · rw [List.take_append_drop]
    exact List.mergeSort_perm own newestFirst
  · rw [← List.take_append_drop limit (own.mergeSort newestFirst)] at ordered
    intro listed member other left
    exact of_decide_eq_true ((List.pairwise_append.mp ordered).2.2 listed member other left)

/-- The same server with another history. -/
def withHistory (s : Server) (history : History) : Server :=
  { s with fx := { s.fx with history } }

theorem listed_own_iff (s : Server) (id : UInt64) (after before : Selector) (limit : Nat) :
    (s.listedTargets id after before limit).map (fun target => (target.key, target.timeMs)) =
      s.ownTargets id after before limit ↔ s.Unobstructed id after before limit := by
  rw [listed_eq, targets_eq, ownTargets, ← filter_mergeSort newestFirst_trans newestFirst_total, filter_take_iff]
  exact .rfl

/-- Names are given to the targets after the others are left out. -/
theorem listedTargets_filter (s : Server) (id : UInt64) (after before : Selector) (limit : Nat) :
    s.listedTargets id after before limit =
      ((s.fx.history.targets after before limit).filter fun target => s.sees id target.1).filterMap fun target =>
        (s.targetName id target.1).map fun name => ⟨target.1, name, target.2⟩ := by
  rw [listedTargets, List.filterMap_filter]
  apply List.filterMap_congr
  intro target _
  have told := s.targetName_isSome id target.1
  cases sees : s.sees id target.1 with
  | true => rfl
  | false =>
    rw [sees, Option.isSome_eq_false_iff, Option.isNone_iff_eq_none] at told
    rw [told]
    rfl

/-- The client's own active targets come from the rings it sees. -/
theorem active_filter (history : History) (test : String → Bool) (after before : Selector) :
    (history.active after before).filter (fun target => test target.1) =
      (history.log.entries.filter fun entry => test entry.1).filterMap fun entry =>
        (lastActive after before entry.2).map fun time => (entry.1, time) := by
  rw [History.active, List.filterMap_filter]
  induction history.log.entries with
  | nil => rfl
  | cons entry entries ih =>
    cases last : lastActive after before entry.2 with
    | none =>
      have skipped : (if test entry.1 = true then (none : Option (String × UInt64)) else none) = none := ite_self _
      rw [List.filterMap_cons, List.filterMap_cons, last, Option.map_none, skipped]
      exact ih
    | some time =>
      rw [List.filterMap_cons, List.filterMap_cons, last, Option.map_some]
      dsimp only
      rw [List.filter_cons]
      split
      · rw [ih]
      · exact ih

/-- The reply is the client's own exactly when the targets of others are not in its way. Then it does not depend on the
rings that the client cannot see. -/
theorem listedTargets_own_iff (s : Server) (id : UInt64) (after before : Selector) (limit : Nat) :
    ((s.listedTargets id after before limit).map (fun target => (target.key, target.timeMs)) =
        s.ownTargets id after before limit ↔ s.Unobstructed id after before limit) ∧
      ∀ other : History,
        (other.log.entries.filter fun entry => s.sees id entry.1) =
            (s.fx.history.log.entries.filter fun entry => s.sees id entry.1) →
          s.Unobstructed id after before limit → (s.withHistory other).Unobstructed id after before limit →
            (s.withHistory other).listedTargets id after before limit = s.listedTargets id after before limit := by
  refine ⟨s.listed_own_iff id after before limit, fun other same clear otherClear => ?_⟩
  have own := (s.listed_own_iff id after before limit).mpr clear
  have otherOwn := ((s.withHistory other).listed_own_iff id after before limit).mpr otherClear
  have active : (other.active after before).filter (fun target => s.sees id target.1) =
      (s.fx.history.active after before).filter fun target => s.sees id target.1 := by
    rw [active_filter other (s.sees id), active_filter s.fx.history (s.sees id), same]
  rw [listed_eq] at own otherOwn
  rw [listedTargets_filter, listedTargets_filter, own, otherOwn, ownTargets, ownTargets]
  exact congrArg (fun mine => ((mine.mergeSort newestFirst).take limit).filterMap fun target =>
    (s.targetName id target.1).map fun name => (⟨target.1, name, target.2⟩ : ListedTarget)) active

/-- Alice is in one channel, and another was active later. -/
def twoActive : Server :=
  let den : StoredMessage := ⟨"1AA-1", 10, "alice!~a@host", none, .privMsg, "#den", "hello"⟩
  let lair : StoredMessage := ⟨"1AA-2", 20, "mallory!~m@host", none, .privMsg, "#lair", "hello"⟩
  let fresh := Server.new ⟨"alpha.example", "1AA", "Net", .rfc1459, 20⟩ 100 1000
  { fresh with
    entries := (∅ : Table UInt64 ClientEntry).insert 1 { nick := "alice", channels := ["#den"] }
    fx := { fresh.fx with history := (fresh.fx.history.record "#den" den).record "#lair" lair } }

theorem twoActive_active : twoActive.fx.history.active (.timestamp 0) .latest = [("#lair", 20), ("#den", 10)] := by
  decide +kernel

/-- A channel that alice is not in takes the one place of her reply. -/
theorem busy_channel_hides_own :
    twoActive.listedTargets 1 (.timestamp 0) .latest 1 = [] ∧
      twoActive.ownTargets 1 (.timestamp 0) .latest 1 = [("#den", 10)] := by
  have own : [("#lair", (20 : UInt64)), ("#den", 10)].filter (fun target => twoActive.sees 1 target.1) =
      [("#den", 10)] := by
    decide +kernel
  constructor
  · have other : twoActive.targetName 1 "#lair" = none := by decide +kernel
    rw [listedTargets, targets_eq, twoActive_active, List.mergeSort_of_pairwise (by decide), List.take_succ_cons,
      List.take_zero, List.filterMap_cons, other]
    rfl
  · rw [ownTargets, twoActive_active, own, List.mergeSort_singleton]
    rfl

/-- With room for both channels, the other one does not matter. -/
theorem listedTargets_own_roomy :
    (twoActive.listedTargets 1 (.timestamp 0) .latest 50).map (fun target => (target.key, target.timeMs)) =
        twoActive.ownTargets 1 (.timestamp 0) .latest 50 ∧
      (twoActive.withHistory (twoActive.fx.history.forget "#lair")).listedTargets 1 (.timestamp 0) .latest 50 =
        twoActive.listedTargets 1 (.timestamp 0) .latest 50 := by
  have clear : twoActive.Unobstructed 1 (.timestamp 0) .latest 50 := by
    refine .inr ?_
    rw [List.drop_eq_nil_of_le]
    · intro target member
      cases member
    · rw [List.length_mergeSort, twoActive_active]
      decide
  have otherClear : (twoActive.withHistory (twoActive.fx.history.forget "#lair")).Unobstructed 1
      (.timestamp 0) .latest 50 := by
    refine .inr ?_
    rw [List.drop_eq_nil_of_le]
    · intro target member
      cases member
    · rw [List.length_mergeSort]
      decide +kernel
  have exact := listedTargets_own_iff twoActive 1 (.timestamp 0) .latest 50
  exact ⟨exact.1.mpr clear, exact.2 (twoActive.fx.history.forget "#lair") (by decide +kernel) clear otherClear⟩

end Server

end Ferrixd
