import Ferrixd.Burst.Rooms

/-! # The channels of a burst

The frames of all channels are read one channel after the other, and each channel ends up as
its own frames say. -/

namespace Ferrixd

/-- What is left of the announced members: those the reader lets the peer speak for. -/
def Tables.admits (t : Tables) (peerSid : String) (members : List (String × MemberPrefix)) :
    List (String × MemberPrefix) :=
  members.filter fun member => t.remoteUidAuthorized peerSid member.1

/-- The channel of the reader after the frames of one channel. -/
def Tables.viewAfter (t : Tables) (peerSid : String) (channel : ChannelEntry)
    (members : List (String × MemberPrefix)) (view : Option RoomView) : Option RoomView :=
  (channel.changes (t.admits peerSid members)).foldl (RoomView.step (.created t.nowUnix) channel.createdAt) view

theorem ChannelEntry.filter_changes (t : Tables) (peerSid : String) (channel : ChannelEntry)
    (members : List (String × MemberPrefix)) :
    (channel.changes members).filter (RoomChange.admitted t peerSid) =
      channel.changes (t.admits peerSid members) := by
  have joins : (members.map fun member => RoomChange.join member.1 member.2).filter
      (RoomChange.admitted t peerSid) =
        (t.admits peerSid members).map fun member => .join member.1 member.2 := by
    rw [Tables.admits, List.filter_map]
    rfl
  -- what is not a join is admitted from any peer
  have lists : ∀ (letter : Char) (list : List Ban),
      (listChanges letter list).filter (RoomChange.admitted t peerSid) = listChanges letter list := by
    intro letter list
    refine List.filter_eq_self.mpr fun change member => ?_
    obtain ⟨chunk, -, rfl⟩ := List.mem_map.mp member
    rfl
  have topic : (channel.topic.map RoomChange.topic).toList.filter (RoomChange.admitted t peerSid) =
      (channel.topic.map RoomChange.topic).toList := by
    cases channel.topic <;> rfl
  have modes : (if 1 < (channel.modes.render true).1.utf8ByteSize then [RoomChange.modes channel.modes]
      else []).filter (RoomChange.admitted t peerSid) =
        if 1 < (channel.modes.render true).1.utf8ByteSize then [RoomChange.modes channel.modes] else [] := by
    split <;> rfl
  have invites : (channel.invited.map RoomChange.invite).filter (RoomChange.admitted t peerSid) =
      channel.invited.map .invite := by
    refine List.filter_eq_self.mpr fun change member => ?_
    obtain ⟨nick, -, rfl⟩ := List.mem_map.mp member
    rfl
  simp only [changes, List.filter_append, joins, lists, topic, modes, invites]

namespace OnlyRoom

variable {folded : String} {t t' : Tables}

theorem remoteUidAuthorized (only : OnlyRoom folded t t') :
    t'.remoteUidAuthorized = t.remoteUidAuthorized := by
  funext peerSid uid
  simp only [Tables.remoteUidAuthorized, Tables.remoteUserByUid, Tables.routedVia, only.registry, only.topology]

theorem admitted (only : OnlyRoom folded t t') (peerSid : String) :
    RoomChange.admitted t' peerSid = RoomChange.admitted t peerSid := by
  funext change
  cases change with
  | join uid status =>
    rw [RoomChange.admitted, RoomChange.admitted, only.remoteUidAuthorized]
  | topic _ => rfl
  | modes _ => rfl
  | masks _ _ => rfl
  | invite _ => rfl

theorem fold (only : OnlyRoom folded t t') : t'.fold = t.fold := by
  funext name
  rw [Tables.fold, Tables.fold, only.info]

theorem nowUnix (only : OnlyRoom folded t t') : t'.nowUnix = t.nowUnix := by
  rw [Tables.nowUnix, Tables.nowUnix, only.clock]

end OnlyRoom

theorem Tables.viewAt_isSome {t : Tables} {folded : String} :
    (t.viewAt folded).isSome = true ↔ folded ∈ t.channels := by
  rw [viewAt, Option.isSome_map, AList.lookup_isSome]

/-! ## One channel -/

namespace Server

/-- Changes are read one after the other. -/
theorem reads_changes (s : Server) (peerSid name : String) (peerTs : UInt64) (changes : List RoomChange)
    (sound : ∀ change ∈ changes, change.Sound) :
    ∃ s', Reads peerSid s (changes.map (RoomChange.frame name peerTs)) s' ∧
      OnlyRoom (s.fold name) s.toTables s'.toTables ∧
      (s.PlainRoom (s.fold name) → s'.viewAt (s.fold name) =
        (changes.filter (RoomChange.admitted s.toTables peerSid)).foldl
          (RoomView.step (.created s.nowUnix) peerTs) (s.viewAt (s.fold name))) := by
  induction changes generalizing s with
  | nil => exact ⟨s, .nil, .refl _ _, fun _ => rfl⟩
  | cons change rest ih =>
    -- the other changes meet the room as this one left it
    obtain ⟨next, handled, taken⟩ := handle_change s peerSid name peerTs (sound change List.mem_cons_self)
    obtain ⟨last, read, only, here⟩ := ih next fun other member => sound other (List.mem_cons_of_mem _ member)
    rw [taken.only.fold, taken.only.admitted, taken.only.nowUnix] at here
    rw [taken.only.fold] at only
    refine ⟨last, (Reads.one handled).append read, taken.only.trans only, fun plain => ?_⟩
    have first := taken.here plain
    have stillPlain : next.PlainRoom (s.fold name) := by
      cases plain with
      | inl free => exact .inl (taken.only.unregistered _ free)
      | inr present =>
        right
        rw [← Tables.viewAt_isSome, first]
        obtain ⟨view, found⟩ := Option.isSome_iff_exists.mp (Tables.viewAt_isSome.mpr present)
        rw [found]
        split <;> rfl
    rw [here stillPlain, first, List.filter_cons]
    split <;> rfl

theorem reads_channel (s : Server) (peerSid : String) {channel : ChannelEntry}
    (members : List (String × MemberPrefix)) (topic : ∀ topic, channel.topic = some topic → topic.text ≠ "") :
    ∃ s', Reads peerSid s (channel.frames members) s' ∧
      OnlyRoom (s.fold channel.name) s.toTables s'.toTables ∧
      (s.PlainRoom (s.fold channel.name) →
        s'.viewAt (s.fold channel.name) =
          s.viewAfter peerSid channel members (s.viewAt (s.fold channel.name))) := by
  rw [ChannelEntry.frames_eq]
  obtain ⟨s', read, only, here⟩ := reads_changes s peerSid channel.name channel.createdAt
    (channel.changes members) (ChannelEntry.changes_sound members topic)
  rw [ChannelEntry.filter_changes] at here
  exact ⟨s', read, only, here⟩

end Server

/-! ## All channels -/

/-- The reader after the frames of some channels. -/
structure Server.ChannelsRead (before : Server) (peerSid : String)
    (members : ChannelEntry → List (String × MemberPrefix)) (channels : List ChannelEntry) (s : Server) :
    Prop where
  unregistered : ∀ folded, before.registeredChannels.lookup folded = none →
    s.registeredChannels.lookup folded = none
  topology : s.toTopology = before.toTopology
  registry : s.toRegistry = before.toRegistry
  locals : s.toLocals = before.toLocals
  info : s.info = before.info
  clock : s.nowMillis = before.nowMillis
  others : ∀ folded, (∀ channel ∈ channels, before.fold channel.name ≠ folded) →
    s.channels.lookup folded = before.channels.lookup folded
  read : ∀ channel ∈ channels, before.PlainRoom (before.fold channel.name) →
    s.viewAt (before.fold channel.name) =
      before.viewAfter peerSid channel (members channel) (before.viewAt (before.fold channel.name))

namespace Server

/-- The frames of channels of different names are read, and each channel takes its own. -/
theorem reads_channels (s : Server) (peerSid : String) (members : ChannelEntry → List (String × MemberPrefix))
    {channels : List ChannelEntry}
    (topics : ∀ channel ∈ channels, ∀ topic, channel.topic = some topic → topic.text ≠ "")
    (distinct : (channels.map fun channel => s.fold channel.name).Nodup) :
    ∃ s', Reads peerSid s (channels.flatMap fun channel => channel.frames (members channel)) s' ∧
      s.ChannelsRead peerSid members channels s' := by
  refine Reads.forEach (I := fun done later => s.ChannelsRead peerSid members done later)
    (fun channel => channel.frames (members channel)) channels ?_
    ⟨fun _ free => free, rfl, rfl, rfl, rfl, rfl, fun _ _ => rfl, by simp⟩
  intro done channel rest later all earlier
  obtain ⟨s', read, only, here⟩ := reads_channel later peerSid (members channel) (topics channel (by simp [← all]))
  have sameFold : later.fold = s.fold := by
    funext name
    rw [Tables.fold, Tables.fold, earlier.info]
  rw [sameFold] at only here
  -- no channel before this one has its name, so its room is still as it was
  have notYet : ∀ other ∈ done, s.fold other.name ≠ s.fold channel.name := by
    intro other member same
    rw [← all, List.map_append, List.nodup_append, List.map_cons] at distinct
    exact distinct.2.2 _ (List.mem_map_of_mem member) _ List.mem_cons_self same
  have untouched := earlier.others _ notYet
  refine ⟨s', read, fun folded free => only.unregistered _ (earlier.unregistered _ free),
    only.topology.trans earlier.topology, only.registry.trans earlier.registry,
    only.locals.trans earlier.locals, only.info.trans earlier.info, only.clock.trans earlier.clock, ?_, ?_⟩
  · intro folded elsewhere
    rw [only.others folded (Ne.symm (elsewhere channel (by simp)))]
    exact earlier.others folded fun other member => elsewhere other (List.mem_append_left _ member)
  · intro other member plain
    rcases List.mem_append.mp member with before | last
    · have kept : s'.viewAt (s.fold other.name) = later.viewAt (s.fold other.name) := by
        rw [Tables.viewAt, Tables.viewAt, only.others _ (notYet other before), only.view]
      rw [kept]
      exact earlier.read other before plain
    · cases List.mem_singleton.mp last
      have sameView : later.viewAt (s.fold channel.name) = s.viewAt (s.fold channel.name) := by
        rw [Tables.viewAt, Tables.viewAt, untouched, Tables.view_of_info earlier.info]
      have sameAfter : later.viewAfter peerSid channel = s.viewAfter peerSid channel := by
        funext members view
        have admits : later.admits peerSid members = s.admits peerSid members := by
          simp only [Tables.admits, Tables.remoteUidAuthorized, Tables.remoteUserByUid, Tables.routedVia,
            earlier.registry, earlier.topology]
        rw [Tables.viewAfter, Tables.viewAfter, admits, Tables.nowUnix, Tables.nowUnix, earlier.clock]
      rw [here, sameView, sameAfter]
      cases plain with
      | inl free => exact .inl (earlier.unregistered _ free)
      | inr present =>
        right
        rw [← AList.lookup_isSome, untouched]
        exact AList.lookup_isSome.mpr present

end Server

end Ferrixd
