import Ferrixd.Burst

/-! # What a channel means to the network

A channel without what only its own server reads: who set which ban and when, which member is
local.  A burst is read as changes of this view. -/

namespace Ferrixd

/-- The last status listed for a UID. -/
def lastStatus (members : List (String × MemberPrefix)) (uid : String) : Option MemberPrefix :=
  members.foldl (fun found member => if member.1 = uid then some member.2 else found) none

theorem foldl_lastStatus (members : List (String × MemberPrefix)) (uid : String)
    (found : Option MemberPrefix) :
    members.foldl (fun found member => if member.1 = uid then some member.2 else found) found =
      (lastStatus members uid).or found := by
  rw [lastStatus]
  induction members generalizing found with
  | nil => rfl
  | cons member rest ih =>
    rw [List.foldl_cons, List.foldl_cons, ih, ih (if member.1 = uid then some member.2 else none)]
    by_cases own : member.1 = uid
    · rw [if_pos own, if_pos own, Option.or_assoc]
      rfl
    · rw [if_neg own, if_neg own, Option.or_none]

theorem lastStatus_cons (member : String × MemberPrefix) (rest : List (String × MemberPrefix))
    (uid : String) :
    lastStatus (member :: rest) uid =
      (lastStatus rest uid).or (if member.1 = uid then some member.2 else none) := by
  rw [lastStatus, List.foldl_cons, foldl_lastStatus]

theorem lastStatus_append (first second : List (String × MemberPrefix)) (uid : String) :
    lastStatus (first ++ second) uid = (lastStatus second uid).or (lastStatus first uid) := by
  rw [lastStatus, List.foldl_append, foldl_lastStatus]
  rfl

theorem lastStatus_isSome {members : List (String × MemberPrefix)} {uid : String} :
    (lastStatus members uid).isSome = true ↔ uid ∈ members.map (·.1) := by
  induction members with
  | nil => simp [lastStatus]
  | cons member rest ih =>
    rw [lastStatus_cons, Option.isSome_or, Bool.or_eq_true, ih, List.map_cons, List.mem_cons]
    by_cases own : member.1 = uid
    · simp [own]
    · simp [own, Ne.symm own]

/-- Where every UID is listed once, the last status is the listed one. -/
theorem lastStatus_map_entries {κ ν : Type} [DecidableEq κ] (table : Table κ ν) (uidOf : κ → String)
    (statusOf : ν → MemberPrefix) (injective : ∀ x y, uidOf x = uidOf y → x = y) (key : κ) :
    lastStatus (table.entries.map fun entry => (uidOf entry.1, statusOf entry.2)) (uidOf key) =
      (table.lookup key).map statusOf := by
  obtain ⟨entries, nodup⟩ := table
  show _ = (List.dlookup key entries).map statusOf
  induction entries with
  | nil => rfl
  | cons entry rest ih =>
    obtain ⟨other, value⟩ := entry
    have restNodup := List.nodupKeys_cons.mp nodup
    rw [List.map_cons, lastStatus_cons, ih restNodup.2]
    by_cases same : other = key
    · subst same
      rw [List.dlookup_cons_eq, List.dlookup_eq_none.mpr restNodup.1]
      simp
    · rw [List.dlookup_cons_ne _ _ (Ne.symm same)]
      have different : ¬ uidOf other = uidOf key := fun eq => same (injective _ _ eq)
      simp [different]

/-! ## Modes -/

/-- The modes with everything that is set in `added` set too. -/
def ChannelModes.merge (modes added : ChannelModes) : ChannelModes where
  noExternal := modes.noExternal || added.noExternal
  topicLock := modes.topicLock || added.topicLock
  moderated := modes.moderated || added.moderated
  inviteOnly := modes.inviteOnly || added.inviteOnly
  secret := modes.secret || added.secret
  key := added.key.or modes.key
  limit := added.limit.or modes.limit

/-- No mode at all. -/
def ChannelModes.blank : ChannelModes :=
  ⟨false, false, false, false, false, none, none⟩

@[simp] theorem ChannelModes.merge_blank (modes : ChannelModes) : modes.merge .blank = modes := by
  simp [merge, blank]

/-! ## The view -/

structure RoomView where
  createdAt : UInt64
  topic : Option Topic
  modes : ChannelModes
  /-- The status of each member, by UID. -/
  status : String → Option MemberPrefix
  bans : List String
  exceptions : List String
  invex : List String
  invited : List String

/-- Add a mask to a list that has room for it and does not hold it. -/
def addMask (masks : List String) (mask : String) : List String :=
  if masks.length < maxListEntries ∧ mask ∉ masks then masks ++ [mask] else masks

/-- Add an invitation to the pending ones, if there is room for it. -/
def addInvite (invited : List String) (nick : String) : List String :=
  if maxPendingInvites ≤ invited.length then invited else invited.insert nick

namespace RoomView

def tsWinsOver (view : RoomView) (peerTs : UInt64) : Bool :=
  peerTs ≠ 0 ∧ view.createdAt < peerTs

def tsLosesTo (view : RoomView) (peerTs : UInt64) : Bool :=
  peerTs ≠ 0 ∧ peerTs < view.createdAt

/-- What is left of a channel that loses to an older one: the topic, the lists and who is there. -/
def blanked (view : RoomView) (peerTs : UInt64) : RoomView :=
  { view with
    createdAt := peerTs
    modes := .blank
    status := fun uid => (view.status uid).map fun _ => {} }

def reconciled (view : RoomView) (peerTs : UInt64) : RoomView :=
  if view.tsLosesTo peerTs then view.blanked peerTs else view

def addMasks (view : RoomView) (letter : Char) (masks : List String) : RoomView :=
  if letter = 'b' then { view with bans := masks.foldl addMask view.bans }
  else if letter = 'e' then { view with exceptions := masks.foldl addMask view.exceptions }
  else { view with invex := masks.foldl addMask view.invex }

end RoomView

/-! ## Changes -/

/-- What one frame of a burst says about a channel. -/
inductive RoomChange where
  | join (uid : String) (status : MemberPrefix)
  | topic (topic : Topic)
  | modes (modes : ChannelModes)
  | masks (letter : Char) (masks : List String)
  | invite (nick : String)

namespace RoomView

/-- Take in one change from a peer whose channel was created at `peerTs`. -/
def take (peerTs : UInt64) (view : RoomView) : RoomChange → RoomView
  | .join uid status =>
    let view := view.reconciled peerTs
    let status := if view.tsWinsOver peerTs then {} else status
    { view with status := fun other => if other = uid then some status else view.status other }
  -- a topic carries no timestamp
  | .topic topic => { view with topic := some topic }
  | .modes modes =>
    if view.tsWinsOver peerTs then view
    else { view.reconciled peerTs with modes := (view.reconciled peerTs).modes.merge modes }
  | .masks letter masks =>
    if view.tsWinsOver peerTs then view else (view.reconciled peerTs).addMasks letter masks
  | .invite nick => { view with invited := addInvite view.invited nick }

/-- A new channel takes the peer's timestamp, if that is known. -/
def dated (view : RoomView) (peerTs : UInt64) : RoomView :=
  if 0 < peerTs then { view with createdAt := peerTs } else view

/-- Only a join creates a channel. -/
def step (fresh : RoomView) (peerTs : UInt64) (view : Option RoomView) (change : RoomChange) :
    Option RoomView :=
  match view, change with
  | some view, change => some (view.take peerTs change)
  | none, .join uid status => some ((fresh.dated peerTs).take peerTs (.join uid status))
  | none, _ => none

end RoomView

/-! ## The changes of a whole channel -/

namespace ChannelEntry

def masks (list : List Ban) : List String :=
  list.map (·.mask)

/-- What the frames of one list say. -/
def listChanges (letter : Char) (list : List Ban) : List RoomChange :=
  (list.toChunks 6).map fun chunk => .masks letter (masks chunk)

/-- What the frames of a channel say, in order. -/
def changes (channel : ChannelEntry) (members : List (String × MemberPrefix)) : List RoomChange :=
  members.map (fun member => .join member.1 member.2) ++
    (channel.topic.map RoomChange.topic).toList ++
    (if 1 < (channel.modes.render true).1.utf8ByteSize then [.modes channel.modes] else []) ++
    listChanges 'b' channel.bans ++ listChanges 'e' channel.exceptions ++ listChanges 'I' channel.invex ++
    channel.invited.map .invite

end ChannelEntry

theorem flatten_toChunks_go {α : Type} (n : Nat) (items : List α) (chunk : Array α)
    (done : Array (List α)) :
    (List.toChunks.go n items chunk done).flatten = done.toList.flatten ++ chunk.toList ++ items := by
  induction items generalizing chunk done with
  | nil => simp [List.toChunks.go]
  | cons item rest ih =>
    rw [List.toChunks.go]
    split <;> simp [ih]

/-- The chunks of a list make up the list. -/
theorem flatten_toChunks {α : Type} (n : Nat) (items : List α) :
    (items.toChunks (n + 1)).flatten = items := by
  cases items with
  | nil => rfl
  | cons item rest =>
    simp [List.toChunks, flatten_toChunks_go]

/-- Rendered modes have no more than the sign exactly if nothing is set. -/
theorem ChannelModes.eq_blank_of_render {modes : ChannelModes}
    (short : ¬ 1 < (modes.render true).1.utf8ByteSize) : modes = .blank := by
  obtain ⟨noExternal, topicLock, moderated, inviteOnly, secret, key, limit⟩ := modes
  simp only [render, String.utf8ByteSize_append] at short
  have sign : ("+" : String).utf8ByteSize = 1 := by decide
  -- the sign alone takes the one byte there is
  cases key with
  | some key =>
    have size : ("k" : String).utf8ByteSize = 1 := by decide
    simp only at short
    omega
  | none =>
    cases limit with
    | some limit =>
      have size : ("l" : String).utf8ByteSize = 1 := by decide
      simp only at short
      omega
    | none =>
      have noLetters : (String.ofList ((boolModes.filter fun mode => mode.get
          ⟨noExternal, topicLock, moderated, inviteOnly, secret, none, none⟩).map (·.letter))) = "" := by
        apply String.utf8ByteSize_eq_zero_iff.mp
        omega
      have noModes := congrArg String.toList noLetters
      rw [String.toList_ofList] at noModes
      have unset := List.filter_eq_nil_iff.mp (List.map_eq_nil_iff.mp noModes)
      simp only [boolModes, List.forall_mem_cons, List.not_mem_nil, false_imp_iff, implies_true, and_true,
        Bool.not_eq_true] at unset
      obtain ⟨rfl, rfl, rfl, rfl, rfl⟩ := unset
      rfl

namespace RoomView

/-- The view with everything a channel of the same age adds. -/
def absorbed (view : RoomView) (channel : ChannelEntry) (members : List (String × MemberPrefix)) :
    RoomView where
  createdAt := view.createdAt
  topic := channel.topic.or view.topic
  modes := view.modes.merge channel.modes
  status uid := (lastStatus members uid).or (view.status uid)
  bans := (ChannelEntry.masks channel.bans).foldl addMask view.bans
  exceptions := (ChannelEntry.masks channel.exceptions).foldl addMask view.exceptions
  invex := (ChannelEntry.masks channel.invex).foldl addMask view.invex
  invited := channel.invited.foldl addInvite view.invited

/-- The view with what a younger channel adds: members without status, the topic and invitations. -/
def withYounger (view : RoomView) (channel : ChannelEntry) (members : List (String × MemberPrefix)) :
    RoomView :=
  { view with
    topic := channel.topic.or view.topic
    status := fun uid => ((lastStatus members uid).map fun _ => {}).or (view.status uid)
    invited := channel.invited.foldl addInvite view.invited }

/-- Neither of two channels is the older one. -/
def Even (view : RoomView) (peerTs : UInt64) : Prop :=
  view.tsWinsOver peerTs = false ∧ view.tsLosesTo peerTs = false

theorem Even.reconciled {view : RoomView} {peerTs : UInt64} (even : view.Even peerTs) :
    view.reconciled peerTs = view := by
  rw [RoomView.reconciled, even.2]
  rfl

theorem foldl_join_even {view : RoomView} {peerTs : UInt64} (even : view.Even peerTs)
    (members : List (String × MemberPrefix)) :
    (members.map fun member => RoomChange.join member.1 member.2).foldl (take peerTs) view =
      { view with status := fun uid => (lastStatus members uid).or (view.status uid) } := by
  induction members generalizing view with
  | nil => rfl
  | cons member rest ih =>
    have first : view.take peerTs (.join member.1 member.2) =
        { view with status := fun other =>
            if other = member.1 then some member.2 else view.status other } := by
      simp only [take, even.reconciled, even.1]
      rfl
    have stillEven : (view.take peerTs (.join member.1 member.2)).Even peerTs := by
      rw [first]
      exact even
    rw [List.map_cons, List.foldl_cons, ih stillEven, first]
    congr 1
    funext uid
    rw [lastStatus_cons, Option.or_assoc]
    by_cases own : uid = member.1
    · simp [own]
    · simp [own, Ne.symm own]

theorem foldl_masks_even {view : RoomView} {peerTs : UInt64} (even : view.Even peerTs) (letter : Char)
    (chunks : List (List String)) :
    (chunks.map fun chunk => RoomChange.masks letter chunk).foldl (take peerTs) view =
      view.addMasks letter chunks.flatten := by
  induction chunks generalizing view with
  | nil =>
    rw [addMasks]
    split
    · rfl
    · split <;> rfl
  | cons chunk rest ih =>
    have first : view.take peerTs (.masks letter chunk) = view.addMasks letter chunk := by
      simp only [take, even.1, even.reconciled]
      rfl
    have sameAge : (view.addMasks letter chunk).createdAt = view.createdAt := by
      rw [addMasks]
      split
      · rfl
      · split <;> rfl
    -- masks do not change the age, so the next chunk is taken too
    have stillEven : (view.addMasks letter chunk).Even peerTs := by
      rw [Even, tsWinsOver, tsLosesTo, sameAge]
      exact even
    rw [List.map_cons, List.foldl_cons, first, ih stillEven, List.flatten_cons]
    simp only [addMasks, List.foldl_append]
    by_cases ban : letter = 'b'
    · simp only [if_pos ban]
    · by_cases exception : letter = 'e'
      · simp only [if_neg ban, if_pos exception]
      · simp only [if_neg ban, if_neg exception]

theorem foldl_invite (view : RoomView) (peerTs : UInt64) (nicks : List String) :
    (nicks.map RoomChange.invite).foldl (take peerTs) view =
      { view with invited := nicks.foldl addInvite view.invited } := by
  induction nicks generalizing view with
  | nil => rfl
  | cons nick rest ih =>
    rw [List.map_cons, List.foldl_cons, ih]
    rfl

theorem foldl_topic (view : RoomView) (peerTs : UInt64) (topic : Option Topic) :
    (topic.map RoomChange.topic).toList.foldl (take peerTs) view =
      { view with topic := topic.or view.topic } := by
  cases topic <;> rfl

/-- The changes of a channel of the same age add up. -/
theorem foldl_changes_even {view : RoomView} {peerTs : UInt64} (even : view.Even peerTs)
    (channel : ChannelEntry) (members : List (String × MemberPrefix)) :
    (channel.changes members).foldl (take peerTs) view = view.absorbed channel members := by
  have modes : ∀ view : RoomView, view.Even peerTs →
      (if 1 < (channel.modes.render true).1.utf8ByteSize then [RoomChange.modes channel.modes]
        else []).foldl (take peerTs) view = { view with modes := view.modes.merge channel.modes } := by
    intro view even
    split
    · simp only [List.foldl_cons, List.foldl_nil, take, even.1, even.reconciled]
      rfl
    · rename_i short
      rw [ChannelModes.eq_blank_of_render short, ChannelModes.merge_blank]
      rfl
  have lists : ∀ (letter : Char) (list : List Ban) (view : RoomView), view.Even peerTs →
      (ChannelEntry.listChanges letter list).foldl (take peerTs) view =
        view.addMasks letter (ChannelEntry.masks list) := by
    intro letter list view even
    have chunks : (list.toChunks 6).map ChannelEntry.masks =
        (list.toChunks 6).map (List.map fun ban : Ban => ban.mask) := rfl
    have flat : ((list.toChunks 6).map ChannelEntry.masks).flatten = ChannelEntry.masks list := by
      rw [chunks, ← List.map_flatten, flatten_toChunks]
      rfl
    have shape : ChannelEntry.listChanges letter list =
        ((list.toChunks 6).map ChannelEntry.masks).map fun chunk => .masks letter chunk := by
      rw [ChannelEntry.listChanges, List.map_map]
      rfl
    rw [shape, foldl_masks_even even, flat]
  simp only [ChannelEntry.changes, List.foldl_append]
  rw [foldl_join_even even, foldl_topic, modes, lists 'b', lists 'e', lists 'I', foldl_invite]
  · rfl
  -- none of the changes touches the creation time, so each meets a view of the same age
  all_goals exact even

/-- Of a younger channel only the members, the topic and the invitations are taken in. -/
theorem foldl_changes_younger {view : RoomView} {peerTs : UInt64} (wins : view.tsWinsOver peerTs = true)
    (channel : ChannelEntry) (members : List (String × MemberPrefix)) :
    (channel.changes members).foldl (take peerTs) view = view.withYounger channel members := by
  -- the older side keeps its settings and takes the members without their status
  have keeps : ∀ (view : RoomView), view.tsWinsOver peerTs = true → view.reconciled peerTs = view := by
    intro view wins
    rw [tsWinsOver, decide_eq_true_eq] at wins
    have notLoses : view.tsLosesTo peerTs = false := by
      rw [tsLosesTo, decide_eq_false_iff_not]
      exact fun loses => UInt64.lt_asymm wins.2 loses.2
    rw [reconciled, notLoses]
    rfl
  have joins : ∀ (view : RoomView), view.tsWinsOver peerTs = true →
      (members.map fun member => RoomChange.join member.1 member.2).foldl (take peerTs) view =
        { view with status := fun uid => ((lastStatus members uid).map fun _ => {}).or (view.status uid) } := by
    induction members with
    | nil => exact fun view _ => rfl
    | cons member rest ih =>
      intro view wins
      have first : view.take peerTs (.join member.1 member.2) =
          { view with status := fun other => if other = member.1 then some {} else view.status other } := by
        simp only [take, keeps view wins, wins]
        rfl
      have stillWins : (view.take peerTs (.join member.1 member.2)).tsWinsOver peerTs = true := by
        rw [first]
        exact wins
      rw [List.map_cons, List.foldl_cons, ih _ stillWins, first]
      congr 1
      funext uid
      rw [lastStatus_cons]
      by_cases own : uid = member.1
      · cases lastStatus rest uid <;> simp [own]
      · cases lastStatus rest uid <;> simp [own, Ne.symm own]
  have modes : ∀ view : RoomView, view.tsWinsOver peerTs = true →
      (if 1 < (channel.modes.render true).1.utf8ByteSize then [RoomChange.modes channel.modes]
        else []).foldl (take peerTs) view = view := by
    intro view wins
    split
    · simp only [List.foldl_cons, List.foldl_nil, take, wins]
      rfl
    · rfl
  have lists : ∀ (letter : Char) (list : List Ban) (view : RoomView), view.tsWinsOver peerTs = true →
      (ChannelEntry.listChanges letter list).foldl (take peerTs) view = view := by
    intro letter list view wins
    refine foldl_invariant (I := fun later => later = view) _ _ ?_ view rfl
    intro later change member same
    obtain ⟨chunk, -, rfl⟩ := List.mem_map.mp member
    rw [same]
    simp only [take, wins]
    rfl
  simp only [ChannelEntry.changes, List.foldl_append]
  rw [joins _ wins, foldl_topic, modes, lists 'b', lists 'e', lists 'I', foldl_invite]
  · rfl
  all_goals exact wins

/-- An older channel with members leaves only the topic, the lists and who is there to add to. -/
theorem foldl_changes_older {view : RoomView} {peerTs : UInt64} (loses : view.tsLosesTo peerTs = true)
    (channel : ChannelEntry) {members : List (String × MemberPrefix)} (occupied : members ≠ []) :
    (channel.changes members).foldl (take peerTs) view =
      (view.blanked peerTs).absorbed channel members := by
  have even : (view.blanked peerTs).Even peerTs := by
    simp [Even, tsWinsOver, tsLosesTo, blanked, UInt64.lt_irrefl]
  rw [← foldl_changes_even even]
  obtain ⟨member, rest, rfl⟩ := List.exists_cons_of_ne_nil occupied
  -- the first join blanks the view
  have first : view.take peerTs (.join member.1 member.2) =
      (view.blanked peerTs).take peerTs (.join member.1 member.2) := by
    rw [take, take, even.reconciled, reconciled, if_pos loses]
  simp only [ChannelEntry.changes, List.map_cons, List.cons_append, List.foldl_cons, first]

/-! ## Runs of steps -/

theorem even_dated (fresh : RoomView) (peerTs : UInt64) : (fresh.dated peerTs).Even peerTs := by
  rw [dated]
  by_cases known : 0 < peerTs
  · simp [if_pos known, Even, tsWinsOver, tsLosesTo, UInt64.lt_irrefl]
  · have unknown : peerTs = 0 := by simpa [UInt64.pos_iff_ne_zero] using known
    simp [unknown, Even, tsWinsOver, tsLosesTo]

theorem foldl_step_some (fresh view : RoomView) (peerTs : UInt64) (changes : List RoomChange) :
    changes.foldl (step fresh peerTs) (some view) = some (changes.foldl (take peerTs) view) := by
  induction changes generalizing view with
  | nil => rfl
  | cons change rest ih =>
    rw [List.foldl_cons, List.foldl_cons, ← ih]
    rfl

/-- A channel that did not exist has what the peer's channel adds to a new one. -/
theorem foldl_step_none (fresh : RoomView) (peerTs : UInt64) (channel : ChannelEntry)
    {members : List (String × MemberPrefix)} (occupied : members ≠ []) :
    (channel.changes members).foldl (step fresh peerTs) none =
      some ((fresh.dated peerTs).absorbed channel members) := by
  rw [← foldl_changes_even (even_dated fresh peerTs), ← foldl_step_some fresh]
  obtain ⟨member, rest, rfl⟩ := List.exists_cons_of_ne_nil occupied
  -- the first join is the one that creates the channel
  simp only [ChannelEntry.changes, List.map_cons, List.cons_append, List.foldl_cons]
  rfl

/-- Without a member nothing creates the channel. -/
theorem foldl_step_unoccupied (fresh : RoomView) (peerTs : UInt64) (channel : ChannelEntry) :
    (channel.changes []).foldl (step fresh peerTs) none = none := by
  refine foldl_invariant (I := fun view => view = none) _ _ ?_ none rfl
  intro view change member absent
  rw [absent]
  cases change with
  | join uid status =>
    simp [ChannelEntry.changes, ChannelEntry.listChanges] at member
  | topic _ => rfl
  | modes _ => rfl
  | masks _ _ => rfl
  | invite _ => rfl

end RoomView

end Ferrixd
