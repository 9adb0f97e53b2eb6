import Ferrixd.Invariant.Membership

/-! # Local clients

What the operations on remote users leave alone: which local clients there are, who they are,
and the channels they are in. -/

namespace Ferrixd

namespace ClientEntry

/-- A client's own data, without the channels it is in and a pending request to go. -/
def identity (entry : ClientEntry) : ClientEntry :=
  { entry with channels := [], killReason := none }

end ClientEntry

/-- Whether a local client is stored as a member of a channel. -/
def isMember (channels : Table String ChannelEntry) (folded : String) (id : UInt64) : Bool :=
  (channels.lookup folded).any fun channel => id ∈ channel.members

/-- Channel tables with the same local members. -/
def SameMembers (channels channels' : Table String ChannelEntry) : Prop :=
  ∀ folded id, isMember channels' folded id = isMember channels folded id

namespace SameMembers

theorem refl (channels : Table String ChannelEntry) : SameMembers channels channels :=
  fun _ _ => rfl

theorem trans {first second third : Table String ChannelEntry} (left : SameMembers first second)
    (right : SameMembers second third) : SameMembers first third :=
  fun folded id => (right folded id).trans (left folded id)

/-- Changing anything but the local members. -/
theorem modify {channels : Table String ChannelEntry} {key : String} {change : ChannelEntry → ChannelEntry}
    (same : ∀ channel, (change channel).members.keys = channel.members.keys) :
    SameMembers channels (channels.modify key change) := by
  intro folded id
  rw [isMember, Table.lookup_modify]
  split
  · rw [isMember]
    cases channels.lookup folded with
    | none => rfl
    | some channel =>
      show decide (id ∈ (change channel).members) = decide (id ∈ channel.members)
      rw [decide_eq_decide, AList.mem_keys, AList.mem_keys, same]
  · rfl

theorem insert_new {channels : Table String ChannelEntry} {key : String} {channel : ChannelEntry}
    (absent : key ∉ channels) (empty : channel.members = ∅) :
    SameMembers channels (channels.insert key channel) := by
  intro folded id
  rw [isMember, isMember, Table.lookup_insert_if]
  split
  · rename_i here
    rw [here, AList.lookup_eq_none.mpr absent, Option.any_some, empty]
    rfl
  · rfl

/-- Reaping removes no local member. -/
theorem reap (channels : Table String ChannelEntry) (key : String) :
    SameMembers channels (Ferrixd.reap channels key) := by
  intro folded id
  rw [isMember, isMember, lookup_reap]
  by_cases same : folded = key
  · rw [if_pos same, same]
    cases channels.lookup key with
    | none => rfl
    | some channel =>
      cases idle : channel.isIdle with
      | true =>
        have empty : channel.members.entries.isEmpty = true := by
          simp only [ChannelEntry.isIdle, Bool.and_eq_true] at idle
          exact idle.1.1
        have absent : id ∉ channel.members := AList.lookup_eq_none.mp (Table.isEmpty_iff.mp empty id)
        simp [Option.filter, idle, absent]
      | false => simp [Option.filter, idle]
  · rw [if_neg same]

theorem dropRemote (channels : Table String ChannelEntry) (key uid : String) :
    SameMembers channels
      (Ferrixd.reap (channels.modify key fun channel => channel.dropRemote uid) key) := by
  have dropped : SameMembers channels (channels.modify key fun channel => channel.dropRemote uid) :=
    modify fun _ => rfl
  exact dropped.trans (reap _ key)

theorem leaveAll (uid : String) (names : List String) (channels : Table String ChannelEntry) :
    SameMembers channels (names.foldl (leave uid) channels) := by
  refine foldl_invariant (I := SameMembers channels) (leave uid) names ?_ channels (.refl channels)
  intro later name _ same
  refine same.trans ?_
  rw [leave]
  split
  · exact .refl _
  · split
    · exact dropRemote later name uid
    · exact .refl _

theorem renameAll (uid newNick : String) (names : List String) (channels : Table String ChannelEntry) :
    SameMembers channels (names.foldl (fun channels name =>
      channels.modify name fun channel => channel.renameRemote uid newNick) channels) := by
  refine foldl_invariant (I := SameMembers channels) _ names ?_ channels (.refl channels)
  intro later name _ same
  exact same.trans (modify fun _ => rfl)

theorem joined (t : Tables) (channelName uid : String) (user : RemoteUser) (status : MemberPrefix)
    (peerTs : UInt64) : SameMembers t.channels (t.joined channelName uid user status peerTs).channels := by
  by_cases present : t.fold channelName ∈ t.channels
  · simp only [Tables.joined, if_pos present]
    refine modify fun channel => ?_
    rw [ChannelEntry.addRemote, ChannelEntry.reconciled]
    split
    · exact Table.keys_mapVal _ _
    · rfl
  · simp only [Tables.joined, if_neg present]
    refine insert_new present ?_
    rw [ChannelEntry.addRemote, Tables.freshChannel, ChannelEntry.dated]
    split <;> split <;> rfl

end SameMembers

/-- Tables with the same local clients, each with its own data unchanged. -/
structure SameClients (t t' : Tables) : Prop where
  clients : t'.clients = t.clients
  indexed : t'.byId = t.byId
  identity : ∀ id, (t'.entry id).identity = (t.entry id).identity

namespace SameClients

theorem of_locals {t t' : Tables} (same : t'.toLocals = t.toLocals) : SameClients t t' := by
  refine ⟨by rw [same], by rw [same], fun id => ?_⟩
  rw [Tables.entry, same]
  rfl

theorem trans {first second third : Tables} (left : SameClients first second)
    (right : SameClients second third) : SameClients first third :=
  ⟨right.clients.trans left.clients, right.indexed.trans left.indexed,
    fun id => (right.identity id).trans (left.identity id)⟩

/-- Changing the channels of a client, or asking it to go. -/
theorem insert {t : Tables} {id : UInt64} {entry : ClientEntry}
    (same : entry.identity = (t.entry id).identity) :
    SameClients t { t with entries := t.entries.insert id entry } := by
  refine ⟨rfl, rfl, fun other => ?_⟩
  show (((t.entries.insert id entry).lookup other).getD {}).identity = _
  rw [Table.lookup_insert_if]
  split
  · rename_i here
    rw [here]
    exact same
  · rfl

theorem killed (t : Tables) (id : UInt64) (reason : String) : SameClients t (t.killed id reason) :=
  insert rfl

theorem partedLocal (t : Tables) (folded : String) (id : UInt64) :
    SameClients t (t.partedLocal folded id) := by
  have left : SameClients t { t with entries := t.entries.insert id { t.entry id with
      channels := (t.entry id).channels.filter fun name => name != folded } } :=
    insert rfl
  exact left.trans (of_locals rfl)

theorem persisted (t : Tables) (folded : String) : SameClients t (t.persisted folded) := by
  rw [Tables.persisted]
  split <;> exact of_locals rfl

theorem movedInSets (s : Server) (oldFolded newFolded : String) (channel : ChannelEntry) :
    SameClients s.toTables (s.moveInSets oldFolded newFolded channel).toTables := by
  have clients := foldl_invariant (I := fun later : Server => SameClients s.toTables later.toTables)
    (fun s id => s.modifyEntry id fun entry =>
      { entry with channels := exchange oldFolded newFolded entry.channels })
    (channel.members.keys.filter fun id => id ∈ s.byId)
    (fun later id _ same => same.trans (insert rfl)) s (of_locals rfl)
  exact clients.trans (of_locals rfl)

theorem movedRegistration (s : Server) (oldFolded newFolded newName : String) :
    SameClients s.toTables (s.moveRegistration oldFolded newFolded newName).toTables := by
  rw [Server.moveRegistration]
  split
  · exact of_locals rfl
  · rename_i record found
    have moved : SameClients s.toTables { s.toTables with
        registeredChannels := (s.registeredChannels.erase oldFolded).insert newFolded
          { record with folded := newFolded, name := newName }
        chanreg := s.chanreg.map (AList.erase oldFolded) } :=
      of_locals rfl
    refine moved.trans ?_
    rw [Server.persistRegistered_toTables]
    exact persisted _ newFolded

theorem renamedChannel {s s' : Server} {oldFolded newName : String}
    (renamed : s.renameChannel oldFolded newName = .ok s') : SameClients s.toTables s'.toTables := by
  rw [Server.renameChannel] at renamed
  cases found : s.findChannel oldFolded with
  | none => simp [found] at renamed
  | some channel =>
    simp only [found] at renamed
    split at renamed
    · cases renamed
      exact of_locals rfl
    · split at renamed
      · cases renamed
      · cases renamed
        have stored : SameClients s.toTables { s.toTables with
            channels := (s.channels.insert (s.fold newName) { channel with name := newName }).erase oldFolded } :=
          of_locals rfl
        have inSets := stored.trans (movedInSets { s with
          channels := (s.channels.insert (s.fold newName) { channel with name := newName }).erase oldFolded }
          oldFolded (s.fold newName) { channel with name := newName })
        have registered : ∀ moved : Server, SameClients s.toTables moved.toTables →
            SameClients s.toTables ((moved.moveRegistration oldFolded (s.fold newName) newName).moveReadMarkers
              oldFolded (s.fold newName)).toTables :=
          fun moved same => (same.trans (movedRegistration moved _ _ _)).trans (of_locals rfl)
        exact registered _ (inSets.trans (of_locals rfl))

end SameClients

/-! ## Operations on channels only -/

/-- The topology, the registry and the local clients are the same. -/
structure RoomsOnly (t t' : Tables) : Prop where
  topology : t'.toTopology = t.toTopology
  registry : t'.toRegistry = t.toRegistry
  info : t'.info = t.info
  clients : SameClients t t'

namespace RoomsOnly

theorem of_eq {t t' : Tables} (same : t' = t) : RoomsOnly t t' := by
  rw [same]
  exact ⟨rfl, rfl, rfl, .of_locals rfl⟩

theorem trans {first second third : Tables} (left : RoomsOnly first second)
    (right : RoomsOnly second third) : RoomsOnly first third :=
  ⟨right.topology.trans left.topology, right.registry.trans left.registry, right.info.trans left.info,
    left.clients.trans right.clients⟩

/-- Changing only the channels. -/
theorem rooms (t : Tables) (rooms : Rooms) : RoomsOnly t { t with toRooms := rooms } :=
  ⟨rfl, rfl, rfl, .of_locals rfl⟩

theorem persisted (t : Tables) (folded : String) : RoomsOnly t (t.persisted folded) := by
  rw [Tables.persisted]
  split
  · exact rooms t _
  · exact of_eq rfl

theorem remoteJoin (s : Server) (channelName uid : String) (status : MemberPrefix) (peerTs : UInt64) :
    RoomsOnly s.toTables (s.remoteJoin channelName uid status peerTs).toTables := by
  cases known : s.remoteUserByUid uid with
  | none =>
    rw [Server.remoteJoin_unknown known]
    exact of_eq rfl
  | some user =>
    rw [Server.remoteJoin_toTables known]
    exact ⟨rfl, rfl, rfl, .of_locals rfl⟩

theorem remotePart (s : Server) (channelName uid reason : String) :
    RoomsOnly s.toTables (s.remotePart channelName uid reason).toTables := by
  rw [Server.remotePart_toTables]
  split
  · exact ⟨rfl, rfl, rfl, .of_locals rfl⟩
  · exact of_eq rfl

theorem remoteTopic (s : Server) (channelName source setBy : String) (setAt : UInt64) (text : String) :
    RoomsOnly s.toTables (s.remoteTopic channelName source setBy setAt text).toTables := by
  rw [Server.remoteTopic_toTables]
  split
  · exact (rooms s.toTables _).trans (persisted _ _)
  · exact of_eq rfl

theorem remoteMode (s : Server) (channelName source : String) (peerTs : UInt64) (flags : String)
    (args : List String) :
    RoomsOnly s.toTables (s.remoteMode channelName source peerTs flags args).toTables := by
  rw [Server.remoteMode_toTables]
  cases found : s.findChannel (s.fold channelName) with
  | none =>
    rw [Server.applyModeChange_unknown found]
    exact of_eq rfl
  | some channel =>
    rw [Server.applyModeChange_toTables found]
    dsimp only
    split
    · exact of_eq rfl
    · split
      · exact rooms s.toTables _
      · exact (rooms s.toTables _).trans (persisted _ _)

theorem remoteKick (s : Server) (channelName source targetUid reason : String) :
    RoomsOnly s.toTables (s.remoteKick channelName source targetUid reason).toTables := by
  obtain same | ⟨id, -, kicked⟩ | ⟨-, -, kicked⟩ :=
    Server.remoteKick_toTables s channelName source targetUid reason
  · exact of_eq same
  · rw [kicked]
    exact ⟨rfl, rfl, rfl, .partedLocal _ _ _⟩
  · rw [kicked]
    exact ⟨rfl, rfl, rfl, .of_locals rfl⟩

theorem remoteRename (s : Server) (source old new reason : String) :
    RoomsOnly s.toTables (s.remoteRename source old new reason).toTables := by
  obtain same | ⟨moved, renamed, same⟩ := Server.remoteRename_toTables s source old new reason
  · exact of_eq same
  · obtain ⟨⟨topology, registry, info⟩, -⟩ := Server.renameChannel_ok renamed
    rw [same]
    exact ⟨topology, registry, info, .renamedChannel renamed⟩

theorem remoteInvite (s : Server) (sourceUid targetUid channelName : String) :
    RoomsOnly s.toTables (s.remoteInvite sourceUid targetUid channelName).toTables := by
  rw [Server.remoteInvite]
  dsimp only
  split
  · exact rooms s.toTables _
  · exact of_eq rfl

theorem remoteInvitePending (s : Server) (foldedNick channelName : String) :
    RoomsOnly s.toTables (s.remoteInvitePending foldedNick channelName).toTables :=
  rooms s.toTables _

end RoomsOnly

end Ferrixd
