import Ferrixd.Burst.Reading
import Ferrixd.Burst.View

/-! # The channel frames of a burst

Every frame about a channel changes the view of that channel as its change says, and no other
channel, user or route. -/

namespace Ferrixd

/-! ## The view of a stored channel -/

namespace Tables

/-- The members of a channel by UID, the local ones first. -/
def roster (t : Tables) (channel : ChannelEntry) : List (String × MemberPrefix) :=
  channel.members.entries.map (fun member => (t.localUid member.1, member.2)) ++
    channel.remoteMembers.entries.map fun member => (member.1, member.2.status)

def view (t : Tables) (channel : ChannelEntry) : RoomView where
  createdAt := channel.createdAt
  topic := channel.topic
  modes := channel.modes
  status := lastStatus (t.roster channel)
  bans := ChannelEntry.masks channel.bans
  exceptions := ChannelEntry.masks channel.exceptions
  invex := ChannelEntry.masks channel.invex
  invited := channel.invited

def viewAt (t : Tables) (folded : String) : Option RoomView :=
  (t.channels.lookup folded).map t.view

/-- The local members' statuses, and before them those of the remote members. -/
theorem lastStatus_roster (t : Tables) (channel : ChannelEntry) (uid : String) :
    lastStatus (t.roster channel) uid =
      ((channel.remoteMembers.lookup uid).map (·.status)).or
        (lastStatus (channel.members.entries.map fun member => (t.localUid member.1, member.2)) uid) := by
  rw [roster, lastStatus_append]
  congr 1
  exact lastStatus_map_entries channel.remoteMembers id (·.status) (fun _ _ same => same) uid

theorem view_of_info {t t' : Tables} (info : t'.info = t.info) : t'.view = t.view := by
  funext channel
  rw [view, view, roster, roster]
  have sameUid : t'.localUid = t.localUid := by
    funext id
    rw [localUid, localUid, info]
  rw [sameUid]

end Tables

/-! ## Operations on a channel -/

theorem lastStatus_blank (members : List (String × MemberPrefix)) (uid : String) :
    lastStatus (members.map fun member => (member.1, {})) uid =
      (lastStatus members uid).map fun _ => {} := by
  induction members with
  | nil => rfl
  | cons member rest ih =>
    rw [List.map_cons, lastStatus_cons, lastStatus_cons, ih]
    by_cases own : member.1 = uid <;> cases lastStatus rest uid <;> simp [own]

namespace Tables

variable (t : Tables) (channel : ChannelEntry) (peerTs : UInt64)

theorem view_blanked : t.view (channel.blanked peerTs) = (t.view channel).blanked peerTs := by
  have blank : t.roster (channel.blanked peerTs) =
      (t.roster channel).map fun member => (member.1, {}) := by
    simp [roster, ChannelEntry.blanked, Table.mapVal, Function.comp_def]
  have statuses : lastStatus (t.roster (channel.blanked peerTs)) =
      fun uid => (lastStatus (t.roster channel) uid).map fun _ => {} := by
    funext uid
    rw [blank, lastStatus_blank]
  rw [view, statuses]
  rfl

theorem view_reconciled : t.view (channel.reconciled peerTs) = (t.view channel).reconciled peerTs := by
  have sameTest : (t.view channel).tsLosesTo peerTs = channel.tsLosesTo peerTs := rfl
  rw [ChannelEntry.reconciled, RoomView.reconciled, sameTest]
  split
  · exact t.view_blanked channel peerTs
  · rfl

theorem view_addRemote (uid : String) (user : RemoteUser) (status : MemberPrefix) :
    t.view (channel.addRemote uid user status peerTs) =
      { t.view channel with
        status := fun other =>
          if other = uid then some (if channel.tsWinsOver peerTs then {} else status)
          else (t.view channel).status other } := by
  have statuses : lastStatus (t.roster (channel.addRemote uid user status peerTs)) = fun other =>
      if other = uid then some (if channel.tsWinsOver peerTs then {} else status)
      else lastStatus (t.roster channel) other := by
    funext other
    rw [lastStatus_roster, lastStatus_roster, ChannelEntry.addRemote]
    dsimp only
    rw [Table.lookup_insert_if]
    by_cases own : other = uid <;> simp [own]
  rw [view, statuses]
  rfl

/-- A join, as the view sees it. -/
theorem view_join (uid : String) (user : RemoteUser) (status : MemberPrefix) :
    t.view ((channel.reconciled peerTs).addRemote uid user status peerTs) =
      (t.view channel).take peerTs (.join uid status) := by
  rw [view_addRemote, view_reconciled, RoomView.take, ← view_reconciled]
  rfl

end Tables

/-! ## Mode changes of a burst -/

namespace ModeStep

variable {resolve : Char → Bool → String → Option ModeStep}

theorem modeSteps_plus (flags : List Char) (adding : Bool) (args : List String) :
    modeSteps resolve ('+' :: flags) adding args = modeSteps resolve flags true args := rfl

theorem modeSteps_bools (modes : List BoolMode) (listed : ∀ mode ∈ modes, mode ∈ boolModes)
    (flags : List Char) (args : List String) :
    modeSteps resolve (modes.map (·.letter) ++ flags) true args =
      modes.map (fun mode => .bool mode.letter true) ++ modeSteps resolve flags true args := by
  induction modes with
  | nil => rfl
  | cons mode rest ih =>
    have one : modeSteps resolve (mode.letter :: (rest.map (·.letter) ++ flags)) true args =
        .bool mode.letter true :: modeSteps resolve (rest.map (·.letter) ++ flags) true args := by
      have known := listed mode List.mem_cons_self
      simp only [boolModes, List.mem_cons, List.not_mem_nil, or_false] at known
      rcases known with rfl | rfl | rfl | rfl | rfl <;> rfl
    rw [List.map_cons, List.cons_append, one, ih fun other member => listed other (List.mem_cons_of_mem _ member)]
    rfl

theorem foldl_bools (setter : String) (now : UInt64) (modes : List BoolMode)
    (listed : ∀ mode ∈ modes, mode ∈ boolModes) (channel : ChannelEntry) (echo : ModeEcho) :
    ((modes.map fun mode => ModeStep.bool mode.letter true).foldl (apply setter now) (channel, echo)).1 =
      { channel with modes := modes.foldl (fun modes mode => mode.set modes true) channel.modes } := by
  induction modes generalizing channel echo with
  | nil => rfl
  | cons mode rest ih =>
    have found : boolModes.find? (fun other => other.letter = mode.letter) = some mode := by
      have known := listed mode List.mem_cons_self
      simp only [boolModes, List.mem_cons, List.not_mem_nil, or_false] at known
      rcases known with rfl | rfl | rfl | rfl | rfl <;> rfl
    rw [List.map_cons, List.foldl_cons, apply, found]
    dsimp only
    rw [ih fun other member => listed other (List.mem_cons_of_mem _ member)]
    rfl

end ModeStep

theorem ChannelModes.foldl_set (modes added : ChannelModes) :
    (boolModes.filter fun mode => mode.get added).foldl (fun modes mode => mode.set modes true) modes =
      { modes.merge added with key := modes.key, limit := modes.limit } := by
  obtain ⟨noExternal, topicLock, moderated, inviteOnly, secret, key, limit⟩ := added
  cases noExternal <;> cases topicLock <;> cases moderated <;> cases inviteOnly <;> cases secret <;>
    simp [boolModes, merge]

namespace ModeStep

/-- Applying the rendered modes sets what they set. -/
theorem applyAll_render (resolve : Char → Bool → String → Option ModeStep) (setter : String) (now : UInt64)
    (channel : ChannelEntry) (modes : ChannelModes) :
    (applyAll (modeSteps resolve (modes.render true).1.toList true (modes.render true).2) setter now
      channel).1 = { channel with modes := channel.modes.merge modes } := by
  have steps : modeSteps resolve (modes.render true).1.toList true (modes.render true).2 =
      (boolModes.filter fun mode => mode.get modes).map (fun mode => .bool mode.letter true) ++
        (modes.key.toList.map (fun key => .key true (some key)) ++
          modes.limit.toList.map fun limit => .limit true (some limit)) := by
    have letters : ∀ flags args, modeSteps resolve
        ((boolModes.filter fun mode => mode.get modes).map (·.letter) ++ flags) true args =
          (boolModes.filter fun mode => mode.get modes).map (fun mode => .bool mode.letter true) ++
            modeSteps resolve flags true args :=
      modeSteps_bools _ fun mode member => List.mem_of_mem_filter member
    have flags : ∀ keyPart limitPart : String,
        ("+" ++ String.ofList ((boolModes.filter fun mode => mode.get modes).map (·.letter)) ++ keyPart ++
          limitPart).toList =
        '+' :: ((boolModes.filter fun mode => mode.get modes).map (·.letter) ++
          (keyPart.toList ++ limitPart.toList)) := by
      simp
    rw [ChannelModes.render]
    cases key : modes.key <;> cases limit : modes.limit <;>
      simp only [flags, modeSteps_plus, letters] <;> simp [modeSteps]
  rw [applyAll, steps, List.foldl_append]
  -- the flags without an argument leave key and limit as they were
  obtain ⟨echo, bools⟩ : ∃ echo, ((boolModes.filter fun mode => mode.get modes).map fun mode =>
      ModeStep.bool mode.letter true).foldl (apply setter now) (channel, {}) =
        ({ channel with modes :=
            { channel.modes.merge modes with key := channel.modes.key, limit := channel.modes.limit } }, echo) := by
    refine ⟨_, Prod.ext ?_ rfl⟩
    rw [foldl_bools _ _ _ (fun mode member => List.mem_of_mem_filter member), ChannelModes.foldl_set]
  rw [bools]
  cases key : modes.key <;> cases limit : modes.limit <;> simp [apply, ChannelModes.merge, key, limit]

theorem modeSteps_masks {letter : Char} (isList : letter = 'b' ∨ letter = 'e' ∨ letter = 'I')
    (resolve : Char → Bool → String → Option ModeStep) (masks : List String) :
    modeSteps resolve (masks.map fun _ => letter) true masks = masks.map fun mask => .list letter true mask := by
  induction masks with
  | nil => rfl
  | cons mask rest ih =>
    rw [List.map_cons, List.map_cons, ← ih]
    rcases isList with rfl | rfl | rfl <;> rfl

theorem view_list (t : Tables) (setter : String) (now : UInt64) {letter : Char}
    (isList : letter = 'b' ∨ letter = 'e' ∨ letter = 'I') (channel : ChannelEntry) (echo : ModeEcho) (mask : String) :
    t.view (apply setter now (channel, echo) (.list letter true mask)).1 =
      (t.view channel).addMasks letter [mask] := by
  have added : ∀ list : List Ban,
      ChannelEntry.masks (applyListMode list true mask setter now).1 =
        addMask (ChannelEntry.masks list) mask := by
    intro list
    have sameTest : (list.length < maxListEntries ∧ ¬ list.any (fun ban => ban.mask = mask) = true) ↔
        ((ChannelEntry.masks list).length < maxListEntries ∧ mask ∉ ChannelEntry.masks list) := by
      simp [ChannelEntry.masks]
    rw [applyListMode, if_pos rfl, addMask, ← if_congr sameTest rfl rfl]
    split
    · simp [ChannelEntry.masks]
    · rfl
  rcases isList with rfl | rfl | rfl
  · exact congrArg (fun bans => { t.view channel with bans }) (added channel.bans)
  · exact congrArg (fun exceptions => { t.view channel with exceptions }) (added channel.exceptions)
  · exact congrArg (fun invex => { t.view channel with invex }) (added channel.invex)

theorem view_lists (t : Tables) (setter : String) (now : UInt64) {letter : Char}
    (isList : letter = 'b' ∨ letter = 'e' ∨ letter = 'I') (masks : List String) (channel : ChannelEntry)
    (echo : ModeEcho) :
    t.view ((masks.map fun mask => ModeStep.list letter true mask).foldl (apply setter now) (channel, echo)).1 =
      (t.view channel).addMasks letter masks := by
  induction masks generalizing channel echo with
  | nil => rcases isList with rfl | rfl | rfl <;> rfl
  | cons mask rest ih =>
    rw [List.map_cons, List.foldl_cons, ih, view_list t setter now isList]
    rcases isList with rfl | rfl | rfl <;> rfl

end ModeStep

theorem ChannelEntry.reconciled_dated (channel : ChannelEntry) (peerTs : UInt64) :
    (channel.dated peerTs).reconciled peerTs = channel.dated peerTs := by
  rw [reconciled, if_neg]
  rw [tsLosesTo, decide_eq_true_eq, dated]
  rintro ⟨known, loses⟩
  have positive : 0 < peerTs := UInt64.pos_iff_ne_zero.mpr known
  rw [if_pos positive] at loses
  exact UInt64.lt_irrefl _ loses

/-! ## Frames -/

namespace RoomChange

def frame (name : String) (peerTs : UInt64) : RoomChange → LinkMessage
  | .join uid status => .sjoin name uid status.op status.voice peerTs
  | .topic subject => .stopic name "*" subject.setBy subject.setAt subject.text
  | .modes set => .smode name "*" peerTs (set.render true).1 (set.render true).2
  | .masks letter added => .smode name "*" peerTs (String.ofList ('+' :: added.map fun _ => letter)) added
  | .invite nick => .sinvite "*" nick name

/-- A topic that is sent has a text, and lists are `b`, `e` and `I`. -/
def Sound : RoomChange → Prop
  | .topic subject => subject.text ≠ ""
  | .masks letter _ => letter = 'b' ∨ letter = 'e' ∨ letter = 'I'
  | _ => True

/-- Whether the reader lets the peer make this change. -/
def admitted (t : Tables) (peerSid : String) : RoomChange → Bool
  | .join uid _ => t.remoteUidAuthorized peerSid uid
  | _ => true

end RoomChange

namespace ChannelEntry

theorem frames_eq (channel : ChannelEntry) (members : List (String × MemberPrefix)) :
    channel.frames members = (channel.changes members).map (RoomChange.frame channel.name channel.createdAt) := by
  have lists : ∀ (letter : Char) (list : List Ban), channel.listFrames letter list =
      (listChanges letter list).map (RoomChange.frame channel.name channel.createdAt) := by
    intro letter list
    rw [listFrames, listChanges, List.map_map]
    refine List.map_congr_left fun chunk _ => ?_
    simp only [Function.comp_apply, RoomChange.frame, masks, List.map_map]
    rfl
  have modes : channel.modeFrames =
      (if 1 < (channel.modes.render true).1.utf8ByteSize then [RoomChange.modes channel.modes] else []).map
        (RoomChange.frame channel.name channel.createdAt) := by
    rw [modeFrames]
    dsimp only
    split <;> rfl
  have topic : channel.topicFrames = (channel.topic.map RoomChange.topic).toList.map
      (RoomChange.frame channel.name channel.createdAt) := by
    rw [topicFrames]
    cases channel.topic <;> rfl
  simp only [frames, changes, List.map_append, List.map_map, lists, modes, topic]
  rfl

theorem changes_sound {channel : ChannelEntry} (members : List (String × MemberPrefix))
    (topic : ∀ topic, channel.topic = some topic → topic.text ≠ "") :
    ∀ change ∈ channel.changes members, change.Sound := by
  intro change member
  simp only [changes, listChanges, List.mem_append, List.mem_map, Option.mem_toList,
    Option.map_eq_some_iff] at member
  rcases member with (((((⟨_, -, rfl⟩ | ⟨_, set, rfl⟩) | mode) | ⟨_, -, rfl⟩) | ⟨_, -, rfl⟩) | ⟨_, -, rfl⟩) |
    ⟨_, -, rfl⟩
  · trivial
  · exact topic _ set
  · split at mode
    · cases List.mem_singleton.mp mode
      trivial
    · cases mode
  · exact .inl rfl
  · exact .inr (.inl rfl)
  · exact .inr (.inr rfl)
  · trivial

end ChannelEntry

/-! ## What the read loop does with them -/

/-- Only the channel at one name differs. -/
structure OnlyRoom (folded : String) (t t' : Tables) : Prop where
  others : ∀ other, other ≠ folded → t'.channels.lookup other = t.channels.lookup other
  unregistered : ∀ other, t.registeredChannels.lookup other = none → t'.registeredChannels.lookup other = none
  topology : t'.toTopology = t.toTopology
  registry : t'.toRegistry = t.toRegistry
  locals : t'.toLocals = t.toLocals
  info : t'.info = t.info
  clock : t'.nowMillis = t.nowMillis

namespace OnlyRoom

theorem refl (folded : String) (t : Tables) : OnlyRoom folded t t :=
  ⟨fun _ _ => rfl, fun _ free => free, rfl, rfl, rfl, rfl, rfl⟩

theorem trans {folded : String} {first second third : Tables} (left : OnlyRoom folded first second)
    (right : OnlyRoom folded second third) : OnlyRoom folded first third :=
  ⟨fun other different => (right.others other different).trans (left.others other different),
    fun other free => right.unregistered other (left.unregistered other free),
    right.topology.trans left.topology, right.registry.trans left.registry,
    right.locals.trans left.locals, right.info.trans left.info, right.clock.trans left.clock⟩

theorem modified (t : Tables) (folded : String) (change : ChannelEntry → ChannelEntry) :
    OnlyRoom folded t { t with channels := t.channels.modify folded change } := by
  refine ⟨fun other different => ?_, fun _ free => free, rfl, rfl, rfl, rfl, rfl⟩
  dsimp only
  rw [Table.lookup_modify, if_neg different]

theorem persisted (t : Tables) (folded : String) : OnlyRoom folded t (t.persisted folded) := by
  rw [Tables.persisted]
  cases registered : t.registeredChannels.lookup folded with
  | none => exact .refl folded t
  | some record =>
    cases t.findChannel folded with
    | none => exact .refl folded t
    | some channel =>
      refine ⟨fun _ _ => rfl, fun other free => ?_, rfl, rfl, rfl, rfl, rfl⟩
      have different : other ≠ folded := by
        intro same
        rw [same, registered] at free
        cases free
      dsimp only
      rw [Table.lookup_insert_if, if_neg different]
      exact free

theorem joined (t : Tables) (channelName uid : String) (user : RemoteUser) (status : MemberPrefix)
    (peerTs : UInt64) : OnlyRoom (t.fold channelName) t (t.joined channelName uid user status peerTs) := by
  refine ⟨fun other different => ?_, fun _ free => free, rfl, rfl, rfl, rfl, rfl⟩
  simp only [Tables.joined]
  split
  · rw [Table.lookup_modify, if_neg different]
  · rw [Table.lookup_insert_if, if_neg different]

theorem view {folded : String} {t t' : Tables} (only : OnlyRoom folded t t') : t'.view = t.view :=
  Tables.view_of_info only.info

end OnlyRoom

/-- A channel as it is created now. -/
def RoomView.created (now : UInt64) : RoomView :=
  ⟨now, none, {}, fun _ => none, [], [], [], []⟩

/-- Nothing is known of a channel that would be created, or it exists. -/
def Tables.PlainRoom (t : Tables) (folded : String) : Prop :=
  t.registeredChannels.lookup folded = none ∨ folded ∈ t.channels

namespace Server

/-- The channel at one name takes one step. -/
structure TakesChange (s s' : Server) (peerSid name : String) (peerTs : UInt64) (change : RoomChange) :
    Prop where
  only : OnlyRoom (s.fold name) s.toTables s'.toTables
  here : s.PlainRoom (s.fold name) →
    s'.viewAt (s.fold name) =
      if change.admitted s.toTables peerSid then
        RoomView.step (.created s.nowUnix) peerTs (s.viewAt (s.fold name)) change
      else s.viewAt (s.fold name)

theorem handle_join (s : Server) (peerSid name : String) (peerTs : UInt64) (uid : String)
    (status : MemberPrefix) :
    ∃ s', s.handle peerSid (RoomChange.frame name peerTs (.join uid status)) = (s', .more) ∧
      s.TakesChange s' peerSid name peerTs (.join uid status) := by
  obtain ⟨s', handled, tables⟩ := handle_applyIf (RoomChange.frame name peerTs (.join uid status))
    (s.remoteUidAuthorized peerSid uid) (fun s => s.remoteJoin name uid status peerTs) rfl
  refine ⟨s', handled, ?_⟩
  cases authorized : s.remoteUidAuthorized peerSid uid with
  | false =>
    rw [authorized, if_neg Bool.false_ne_true] at tables
    constructor
    · rw [tables]
      exact .refl _ _
    · intro _
      rw [RoomChange.admitted, authorized, if_neg Bool.false_ne_true, tables]
  | true =>
    -- only a user we know is authorized for a peer
    obtain ⟨user, known⟩ : ∃ user, s.remoteUserByUid uid = some user := by
      rw [Tables.remoteUidAuthorized] at authorized
      cases known : s.remoteUserByUid uid with
      | none => simp [known] at authorized
      | some user => exact ⟨user, rfl⟩
    rw [authorized, if_pos rfl, remoteJoin_toTables known] at tables
    have only : OnlyRoom (s.fold name) s.toTables s'.toTables := by
      rw [tables]
      exact .joined _ _ _ _ _ _
    refine ⟨only, fun plain => ?_⟩
    rw [RoomChange.admitted, authorized, if_pos rfl, Tables.viewAt, only.view, Tables.viewAt, tables,
      Tables.joined]
    by_cases present : s.fold name ∈ s.channels
    · obtain ⟨channel, found⟩ := Option.isSome_iff_exists.mp (AList.lookup_isSome.mpr present)
      dsimp only
      rw [if_pos present, Table.lookup_modify, if_pos rfl, found, Option.map_some, Option.map_some,
        Option.map_some, Tables.view_join]
      rfl
    · have free : s.registeredChannels.lookup (s.fold name) = none := plain.resolve_right present
      dsimp only
      rw [if_neg present, AList.lookup_insert, Option.map_some, AList.lookup_eq_none.mpr present,
        Tables.freshChannel, free, Option.map_none, RoomView.step, ← ChannelEntry.reconciled_dated, Tables.view_join]
      congr 2
      rw [ChannelEntry.dated, RoomView.dated]
      split <;> rfl

theorem handle_smode (s : Server) (peerSid name : String) (peerTs : UInt64) (flags : String)
    (args : List String) (effect : RoomView → RoomView)
    (applied : ∀ setter now channel,
      s.view (ModeStep.applyAll (modeSteps s.statusStep flags.toList true args) setter now channel).1 =
        effect (s.view channel)) :
    ∃ s', s.handle peerSid (.smode name "*" peerTs flags args) = (s', .more) ∧
      OnlyRoom (s.fold name) s.toTables s'.toTables ∧
      s'.viewAt (s.fold name) = (s.viewAt (s.fold name)).map fun view =>
        if view.tsWinsOver peerTs then view else effect (view.reconciled peerTs) := by
  obtain ⟨s', handled, tables⟩ := handle_applyIf (.smode name "*" peerTs flags args)
    (s.linkSourceAuthorized peerSid "*") (fun s => s.remoteMode name "*" peerTs flags args) rfl
  -- the source of a burst is the link itself, which every peer may name
  have authorized : s.linkSourceAuthorized peerSid "*" = true := by simp [Tables.linkSourceAuthorized]
  rw [authorized, if_pos rfl, remoteMode_toTables] at tables
  refine ⟨s', handled, ?_⟩
  cases found : s.findChannel (s.fold name) with
  | none =>
    rw [applyModeChange_unknown found] at tables
    have absent : s.viewAt (s.fold name) = none := by
      rw [Tables.viewAt, show s.channels.lookup (s.fold name) = none from found]
      rfl
    rw [tables, absent]
    exact ⟨.refl _ _, rfl⟩
  | some channel =>
    have here : s.viewAt (s.fold name) = some (s.view channel) := by
      rw [Tables.viewAt, show s.channels.lookup (s.fold name) = some channel from found]
      rfl
    have sameTest : (s.view channel).tsWinsOver peerTs = channel.tsWinsOver peerTs := rfl
    rw [applyModeChange_toTables found] at tables
    dsimp only at tables
    rw [here, Option.map_some, sameTest]
    split at tables
    · rename_i wins
      rw [tables, if_pos wins, here]
      exact ⟨.refl _ _, rfl⟩
    · rename_i keeps
      have only : OnlyRoom (s.fold name) s.toTables s'.toTables := by
        rw [tables]
        split
        · exact .modified _ _ _
        · exact (OnlyRoom.modified _ _ _).trans (.persisted _ _)
      have channels : s'.channels = s.channels.modify (s.fold name) fun _ =>
          (ModeStep.applyAll (modeSteps s.statusStep flags.toList true args) (s.remoteSourceNick "*") s.nowUnix
            (channel.reconciled peerTs)).1 := by
        rw [tables]
        split
        · rfl
        · rw [Tables.persisted_channels]
      refine ⟨only, ?_⟩
      rw [if_neg keeps, Tables.viewAt, only.view, channels, Table.lookup_modify, if_pos rfl,
        show s.channels.lookup (s.fold name) = some channel from found, Option.map_some, Option.map_some, applied,
        Tables.view_reconciled]

theorem handle_stopic (s : Server) (peerSid name : String) {topic : Topic} (text : topic.text ≠ "") :
    ∃ s', s.handle peerSid (.stopic name "*" topic.setBy topic.setAt topic.text) = (s', .more) ∧
      OnlyRoom (s.fold name) s.toTables s'.toTables ∧
      s'.viewAt (s.fold name) = (s.viewAt (s.fold name)).map fun view => { view with topic := some topic } := by
  obtain ⟨s', handled, tables⟩ := handle_applyIf (.stopic name "*" topic.setBy topic.setAt topic.text)
    (s.linkSourceAuthorized peerSid "*")
    (fun s => s.remoteTopic name "*" topic.setBy topic.setAt topic.text) rfl
  have authorized : s.linkSourceAuthorized peerSid "*" = true := by simp [Tables.linkSourceAuthorized]
  rw [authorized, if_pos rfl, remoteTopic_toTables, if_neg text] at tables
  refine ⟨s', handled, ?_⟩
  split at tables
  · have only : OnlyRoom (s.fold name) s.toTables s'.toTables := by
      rw [tables]
      exact (OnlyRoom.modified _ _ _).trans (.persisted _ _)
    refine ⟨only, ?_⟩
    rw [Tables.viewAt, only.view, tables, Tables.persisted_channels, Table.lookup_modify, if_pos rfl,
      Tables.viewAt, Option.map_map, Option.map_map]
    rfl
  · rename_i absent
    rw [tables, Tables.viewAt, AList.lookup_eq_none.mpr absent]
    exact ⟨.refl _ _, rfl⟩

/-- Every channel frame of a burst is applied as its change says. -/
theorem handle_change (s : Server) (peerSid name : String) (peerTs : UInt64) {change : RoomChange}
    (sound : change.Sound) :
    ∃ s', s.handle peerSid (change.frame name peerTs) = (s', .more) ∧
      s.TakesChange s' peerSid name peerTs change := by
  cases change with
  | join uid status => exact handle_join s peerSid name peerTs uid status
  | topic topic =>
    obtain ⟨s', handled, only, here⟩ := handle_stopic s peerSid name sound
    refine ⟨s', handled, only, fun _ => ?_⟩
    rw [here]
    cases s.viewAt (s.fold name) <;> rfl
  | modes modes =>
    obtain ⟨s', handled, only, here⟩ := handle_smode s peerSid name peerTs (modes.render true).1
      (modes.render true).2 (fun view => { view with modes := view.modes.merge modes }) (by
        intro setter now channel
        rw [ModeStep.applyAll_render]
        rfl)
    refine ⟨s', handled, only, fun _ => ?_⟩
    rw [here]
    cases s.viewAt (s.fold name) <;> rfl
  | masks letter masks =>
    obtain ⟨s', handled, only, here⟩ := handle_smode s peerSid name peerTs
      (String.ofList ('+' :: masks.map fun _ => letter)) masks
      (fun view => view.addMasks letter masks) (by
        intro setter now channel
        rw [String.toList_ofList, ModeStep.modeSteps_plus, ModeStep.modeSteps_masks sound]
        exact ModeStep.view_lists s.toTables setter now sound masks channel {})
    refine ⟨s', handled, only, fun _ => ?_⟩
    rw [here]
    cases s.viewAt (s.fold name) <;> rfl
  | invite nick =>
    -- an invitation does not look at the timestamps of the room
    refine ⟨_, rfl, ?_⟩
    have only : OnlyRoom (s.fold name) s.toTables (s.remoteInvitePending nick name).toTables :=
      .modified _ _ _
    refine ⟨only, fun _ => ?_⟩
    have channels : (s.remoteInvitePending nick name).channels.lookup (s.fold name) =
        (s.channels.lookup (s.fold name)).map fun channel =>
          if maxPendingInvites ≤ channel.invited.length then channel
          else { channel with invited := channel.invited.insert nick } := by
      rw [remoteInvitePending, modifyChannel_toTables]
      dsimp only
      rw [Table.lookup_modify, if_pos rfl]
    show ((s.remoteInvitePending nick name).channels.lookup (s.fold name)).map
      (s.remoteInvitePending nick name).view = _
    rw [only.view, channels, Tables.viewAt]
    cases s.channels.lookup (s.fold name) with
    | none => rfl
    | some channel =>
      simp only [Option.map_some, RoomChange.admitted, if_true, RoomView.step, RoomView.take, addInvite]
      split <;> (split <;> first | rfl | contradiction)

end Server

end Ferrixd
