import Ferrixd.Invariant.Moves

/-! # The local registry

The clients, their nicks and their channels point at each other: which operations leave these
references alone, and what keeps them consistent. -/

namespace Ferrixd

/-! ## Changes that leave them alone -/

/-- A timestamp conflict takes the members' status, not the members. -/
theorem ChannelEntry.reconciled_keepsLocals (channel : ChannelEntry) (peerTs : UInt64) :
    (channel.reconciled peerTs).members.keys = channel.members.keys ∧
      (channel.reconciled peerTs).name = channel.name := by
  rw [ChannelEntry.reconciled]
  split
  · exact ⟨Table.keys_mapVal _ _, rfl⟩
  · exact ⟨rfl, rfl⟩

/-- Channel tables with the same local members, in which nobody else's name changed. -/
structure SameRooms (fold : String → String) (channels channels' : Table String ChannelEntry) : Prop where
  members : SameMembers channels channels'
  named : ∀ folded channel, channels'.lookup folded = some channel →
    fold channel.name = folded ∨ ∃ before, channels.lookup folded = some before ∧ before.name = channel.name

namespace SameRooms

variable {fold : String → String}

theorem refl (channels : Table String ChannelEntry) : SameRooms fold channels channels :=
  ⟨.refl channels, fun _ channel found => .inr ⟨channel, found, rfl⟩⟩

theorem trans {first second third : Table String ChannelEntry} (left : SameRooms fold first second)
    (right : SameRooms fold second third) : SameRooms fold first third := by
  refine ⟨left.members.trans right.members, fun folded channel found => ?_⟩
  rcases right.named folded channel found with here | ⟨before, stored, name⟩
  · exact .inl here
  · rcases left.named folded before stored with here | ⟨first, original, same⟩
    · exact .inl (name ▸ here)
    · exact .inr ⟨first, original, same.trans name⟩

/-- Changing anything but the local members and the name. -/
theorem modify {channels : Table String ChannelEntry} {key : String} {change : ChannelEntry → ChannelEntry}
    (same : ∀ channel, channels.lookup key = some channel →
      (change channel).members.keys = channel.members.keys ∧ (change channel).name = channel.name) :
    SameRooms fold channels (channels.modify key change) := by
  constructor
  · intro folded id
    rw [isMember, isMember, Table.lookup_modify]
    split
    · rename_i here
      subst here
      cases stored : channels.lookup folded with
      | none => rfl
      | some channel =>
        show decide (id ∈ (change channel).members) = decide (id ∈ channel.members)
        rw [decide_eq_decide, AList.mem_keys, AList.mem_keys, (same channel stored).1]
    · rfl
  · intro folded channel found
    rw [Table.lookup_modify] at found
    split at found
    · rename_i here
      subst here
      obtain ⟨before, stored, rfl⟩ := Option.map_eq_some_iff.mp found
      exact .inr ⟨before, stored, (same before stored).2.symm⟩
    · exact .inr ⟨channel, found, rfl⟩

theorem insert_new {channels : Table String ChannelEntry} {key : String} {channel : ChannelEntry}
    (absent : key ∉ channels) (empty : channel.members = ∅) (name : fold channel.name = key) :
    SameRooms fold channels (channels.insert key channel) := by
  refine ⟨.insert_new absent empty, fun folded stored found => ?_⟩
  rw [Table.lookup_insert_if] at found
  split at found
  · rename_i here
    cases found
    exact .inl (name.trans here.symm)
  · exact .inr ⟨stored, found, rfl⟩

theorem reap (channels : Table String ChannelEntry) (key : String) :
    SameRooms fold channels (Ferrixd.reap channels key) := by
  refine ⟨.reap channels key, fun folded channel found => ?_⟩
  rw [lookup_reap] at found
  split at found
  · rename_i here
    subst here
    exact .inr ⟨channel, (Option.filter_eq_some_iff.mp found).1, rfl⟩
  · exact .inr ⟨channel, found, rfl⟩

theorem dropRemote (channels : Table String ChannelEntry) (key uid : String) :
    SameRooms fold channels (Ferrixd.reap (channels.modify key fun channel => channel.dropRemote uid) key) := by
  have dropped : SameRooms fold channels (channels.modify key fun channel => channel.dropRemote uid) :=
    modify fun _ _ => ⟨rfl, rfl⟩
  exact dropped.trans (reap _ key)

theorem leaveAll (uid : String) (names : List String) (channels : Table String ChannelEntry) :
    SameRooms fold channels (names.foldl (leave uid) channels) := by
  refine foldl_invariant (I := SameRooms fold channels) (leave uid) names ?_ channels (.refl channels)
  intro later name _ same
  refine same.trans ?_
  rw [leave]
  split
  · exact .refl _
  · split
    · exact dropRemote later name uid
    · exact .refl _

theorem renameAll (uid newNick : String) (names : List String) (channels : Table String ChannelEntry) :
    SameRooms fold channels (names.foldl (fun channels name =>
      channels.modify name fun channel => channel.renameRemote uid newNick) channels) := by
  refine foldl_invariant (I := SameRooms fold channels) _ names ?_ channels (.refl channels)
  intro later name _ same
  exact same.trans (modify fun _ _ => ⟨rfl, rfl⟩)

theorem joined (t : Tables) (channelName uid : String) (user : RemoteUser) (status : MemberPrefix)
    (peerTs : UInt64) : SameRooms t.fold t.channels (t.joined channelName uid user status peerTs).channels := by
  by_cases present : t.fold channelName ∈ t.channels
  · simp only [Tables.joined, if_pos present]
    exact modify fun channel _ => channel.reconciled_keepsLocals peerTs
  · simp only [Tables.joined, if_neg present]
    refine insert_new present ?_ ?_
    · rw [ChannelEntry.addRemote, Tables.freshChannel, ChannelEntry.dated]
      split <;> split <;> rfl
    · rw [ChannelEntry.addRemote, Tables.freshChannel, ChannelEntry.dated]
      split <;> split <;> rfl

end SameRooms

/-- Tables with the same local clients in the same channels. -/
structure Undisturbed (t t' : Tables) : Prop where
  info : t'.info = t.info
  clients : SameClients t t'
  sets : ∀ id, (t'.entry id).channels = (t.entry id).channels
  rooms : SameRooms t.fold t.channels t'.channels

namespace Undisturbed

theorem of_eq {t t' : Tables} (same : t' = t) : Undisturbed t t' := by
  rw [same]
  exact ⟨rfl, .of_locals rfl, fun _ => rfl, .refl _⟩

theorem trans {first second third : Tables} (left : Undisturbed first second) (right : Undisturbed second third) :
    Undisturbed first third := by
  refine ⟨right.info.trans left.info, left.clients.trans right.clients,
    fun id => (right.sets id).trans (left.sets id), ?_⟩
  have fold : second.fold = first.fold := by
    funext name
    rw [Tables.fold, Tables.fold, left.info]
  exact left.rooms.trans (fold ▸ right.rooms)

/-- Nothing about the clients changed, and nothing about the channels that they see. -/
theorem of_rooms {t t' : Tables} (info : t'.info = t.info) (locals : t'.toLocals = t.toLocals)
    (rooms : SameRooms t.fold t.channels t'.channels) : Undisturbed t t' := by
  refine ⟨info, .of_locals locals, fun id => ?_, rooms⟩
  rw [Tables.entry, locals]
  rfl

/-- Nothing about the clients and the channels changed. -/
theorem elsewhere {t t' : Tables} (info : t'.info = t.info) (locals : t'.toLocals = t.toLocals)
    (channels : t'.channels = t.channels) : Undisturbed t t' :=
  of_rooms info locals (by rw [channels]; exact .refl _)

theorem killed (t : Tables) (id : UInt64) (reason : String) : Undisturbed t (t.killed id reason) := by
  refine ⟨rfl, .killed t id reason, fun other => ?_, .refl _⟩
  show (((t.entries.insert id ((t.entry id).requestKill reason)).lookup other).getD {}).channels = _
  rw [Table.lookup_insert_if]
  split
  · rename_i here
    rw [here]
    rfl
  · rfl

theorem purged (t : Tables) (uid : String) : Undisturbed t (t.purged uid) :=
  of_rooms rfl rfl (.leaveAll uid _ _)

theorem parted (t : Tables) (folded uid : String) : Undisturbed t (t.parted folded uid) :=
  of_rooms rfl rfl (.dropRemote _ _ _)

theorem renamed (t : Tables) (uid newNick : String) (old : RemoteUser) : Undisturbed t (t.renamed uid newNick old) :=
  of_rooms rfl rfl (.renameAll uid newNick _ _)

theorem persisted (t : Tables) (folded : String) : Undisturbed t (t.persisted folded) := by
  rw [Tables.persisted]
  split <;> exact elsewhere rfl rfl rfl

/-- Moves of remote users. -/
theorem of_moves {t t' : Tables} (moves : Moves t t') : Undisturbed t t' := by
  induction moves with
  | refl t => exact of_eq rfl
  | trans _ _ left right => exact left.trans right
  | killed t id reason => exact killed t id reason
  | purged t uid => exact purged t uid
  | parted t folded uid => exact parted t folded uid
  | renamed t uid newNick old => exact renamed t uid newNick old
  | invited t folded pending =>
    have invited : SameRooms t.fold t.channels (t.channels.modify folded fun channel =>
        { channel with invited := pending channel }) := .modify fun _ _ => ⟨rfl, rfl⟩
    exact of_rooms rfl rfl invited
  | elsewhere info locals channels _ _ => exact elsewhere info locals channels

variable (s : Server)

/-! ### Channels -/

theorem remoteJoin (channelName uid : String) (status : MemberPrefix) (peerTs : UInt64) :
    Undisturbed s.toTables (s.remoteJoin channelName uid status peerTs).toTables := by
  cases known : s.remoteUserByUid uid with
  | none =>
    rw [Server.remoteJoin_unknown known]
    exact of_eq rfl
  | some user =>
    rw [Server.remoteJoin_toTables known]
    exact of_rooms rfl rfl (.joined s.toTables channelName uid user status peerTs)

theorem remoteTopic (channelName source setBy : String) (setAt : UInt64) (text : String) :
    Undisturbed s.toTables (s.remoteTopic channelName source setBy setAt text).toTables := by
  rw [Server.remoteTopic_toTables]
  split
  · have changed : SameRooms s.fold s.channels (s.channels.modify (s.fold channelName) fun channel =>
        { channel with topic := if text = "" then none else some ⟨text, setBy, setAt⟩ }) :=
      .modify fun _ _ => ⟨rfl, rfl⟩
    refine Undisturbed.trans ?_ (persisted _ _)
    exact of_rooms rfl rfl changed
  · exact of_eq rfl

theorem remoteMode (channelName source : String) (peerTs : UInt64) (flags : String) (args : List String) :
    Undisturbed s.toTables (s.remoteMode channelName source peerTs flags args).toTables := by
  rw [Server.remoteMode_toTables]
  cases found : s.findChannel (s.fold channelName) with
  | none =>
    rw [Server.applyModeChange_unknown found]
    exact of_eq rfl
  | some channel =>
    rw [Server.applyModeChange_toTables found]
    dsimp only
    split
    · exact of_eq rfl
    · have changed : SameRooms s.fold s.channels (s.channels.modify (s.fold channelName) fun _ =>
          (ModeStep.applyAll (modeSteps s.statusStep flags.toList true args) (s.remoteSourceNick source)
            s.nowUnix (channel.reconciled peerTs)).1) := by
        refine .modify fun before stored => ?_
        -- modes change the status of members, never who is one
        have stayed := ModeStep.applyAll_sameRoom (modeSteps s.statusStep flags.toList true args)
          (s.remoteSourceNick source) s.nowUnix (channel.reconciled peerTs)
        obtain ⟨members, name⟩ := channel.reconciled_keepsLocals peerTs
        cases found.symm.trans stored
        exact ⟨stayed.members.trans members, stayed.name.trans name⟩
      split
      · exact of_rooms rfl rfl changed
      · refine Undisturbed.trans ?_ (persisted _ _)
        exact of_rooms rfl rfl changed

/-! ### Frames -/

variable {s} {peerSid : String}

/-- The frames of remote users leave the clients and their channels alone, except a kick of a
client and the rename of a channel. -/
theorem receive {message : LinkMessage}
    (kick : ∀ channel source target reason, message ≠ .skick channel source target reason)
    (rename : ∀ source old new reason, message ≠ .srename source old new reason) :
    Undisturbed s.toTables (s.receive peerSid message).toTables := by
  -- a frame that is not authorized changes nothing
  have applied : ∀ (authorized : Bool) (change : Server → Server),
      s.handle peerSid message = s.applyIf authorized peerSid message change →
      Undisturbed s.toTables (change s).toTables → Undisturbed s.toTables (s.receive peerSid message).toTables := by
    intro authorized change handled kept
    rw [Server.receive_applyIf handled]
    cases authorized with
    | true => exact kept
    | false => exact of_eq rfl
  cases other : message.altersRoom with
  | false => exact of_moves (.received (.handle other))
  | true =>
    cases message with
    | sjoin channel uid op voice ts =>
      have joined := remoteJoin s channel uid ⟨op, voice⟩ ts
      exact applied _ (fun s => s.remoteJoin channel uid ⟨op, voice⟩ ts) rfl joined
    | stopic channel source setBy setAt text =>
      have changed := remoteTopic s channel source setBy setAt text
      exact applied _ (fun s => s.remoteTopic channel source setBy setAt text) rfl changed
    | smode channel source ts flags args =>
      have changed := remoteMode s channel source ts flags args
      exact applied _ (fun s => s.remoteMode channel source ts flags args) rfl changed
    | skick channel source target reason => exact absurd rfl (kick channel source target reason)
    | srename source old new reason => exact absurd rfl (rename source old new reason)
    | _ => cases other

end Undisturbed

end Ferrixd
