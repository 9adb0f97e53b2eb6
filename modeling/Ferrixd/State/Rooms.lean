import Ferrixd.State.Presence

/-! # Channel lifecycle

Creation, reaping and registration of channels, and the membership of remote users, which
is kept both in the channel and in an index by user. -/

namespace Ferrixd

/-! ## Registrations -/

/-- Seed a freshly-created channel with a registration's topic and modes. -/
def seedFromRegistration (channel : ChannelEntry) (record : RegisteredChannel) : ChannelEntry :=
  let topic := match record.topicText with
    | some text => some ⟨text, record.topicSetby, record.topicSetat⟩
    | none => channel.topic
  let modes := boolModes.foldl
    (fun modes mode => mode.set modes (record.modeFlags &&& mode.persistBit != 0)) channel.modes
  { channel with topic, modes := { modes with key := record.key, limit := record.limit } }

/-- Build a registration from a channel's topic and modes. -/
def buildRegistration (folded founder : String) (channel : ChannelEntry) : RegisteredChannel where
  folded := folded
  name := channel.name
  founder := founder
  topicText := channel.topic.map (·.text)
  topicSetby := channel.topic.elim "" (·.setBy)
  topicSetat := channel.topic.elim 0 (·.setAt)
  modeFlags := boolModes.foldl
    (fun flags mode => if mode.get channel.modes then flags ||| mode.persistBit else flags) 0
  key := channel.modes.key
  limit := channel.modes.limit

def Tables.isChannelRegistered (s : Tables) (folded : String) : Bool :=
  folded ∈ s.registeredChannels

def Tables.channelFounder (s : Tables) (folded : String) : Option String :=
  (s.registeredChannels.lookup folded).map (·.founder)

/-! ## Creation and reaping -/

/-- A new channel is created with `+nt` and the current time. -/
def newChannel (displayName : String) (now : UInt64) : ChannelEntry where
  name := displayName
  createdAt := now

namespace ChannelEntry

def isIdle (channel : ChannelEntry) : Bool :=
  channel.members.entries.isEmpty && channel.remoteMembers.entries.isEmpty && channel.joining == 0

/-- Remove a remote member. -/
def dropRemote (channel : ChannelEntry) (uid : String) : ChannelEntry :=
  { channel with remoteMembers := channel.remoteMembers.erase uid }

/-- Remove a local member. -/
def dropLocal (channel : ChannelEntry) (id : UInt64) : ChannelEntry :=
  { channel with members := channel.members.erase id }

end ChannelEntry

/-- The channel a first join creates: a registered one gets its saved topic and modes. -/
def Tables.freshChannel (s : Tables) (folded displayName : String) : ChannelEntry :=
  match s.registeredChannels.lookup folded with
  | some record => seedFromRegistration (newChannel displayName s.nowUnix) record
  | none => newChannel displayName s.nowUnix

namespace Server

/-- Refresh a registered channel's record from its live state. -/
def persistRegistered (s : Server) (folded : String) : Server :=
  match s.registeredChannels.lookup folded, s.findChannel folded with
  | some record, some channel =>
    let record := buildRegistration folded record.founder channel
    { s with
      chanreg := s.chanreg.map fun rows => rows.insert folded record
      registeredChannels := s.registeredChannels.insert folded record }
  | _, _ => s

/-- Get or create a channel and register a join in flight on it; whether it was created. -/
def beginJoin (s : Server) (folded displayName : String) : Server × Bool :=
  match s.findChannel folded with
  | some _ =>
    (s.modifyChannel folded fun channel => { channel with joining := channel.joining + 1 }, false)
  | none =>
    let channel := s.freshChannel folded displayName
    ({ s with channels := s.channels.insert folded { channel with joining := channel.joining + 1 } },
      true)

/-- Drop a channel without members and without a join in flight, and its history ring. -/
def reapChannel (s : Server) (folded : String) : Server :=
  match s.findChannel folded with
  | none => s
  | some channel =>
    if channel.isIdle then
      { s with channels := s.channels.erase folded }.emit fun fx =>
        { fx with history := fx.history.forget folded }
    else s

/-- The end of a join attempt: one join less in flight, and the channel reaped if empty. -/
def endJoin (s : Server) (folded : String) : Server :=
  (s.modifyChannel folded fun channel => { channel with joining := channel.joining - 1 }).reapChannel
    folded

/-! ## Memberships of remote users -/

def remoteChannelRemoved (s : Server) (uid folded : String) : Server :=
  { s with remoteChannels := s.remoteChannels.modify uid fun names => names.filter fun name => name != folded }

end Server

/-- The channels a remote user is in, by the index. -/
def Tables.remoteMembershipChannels (s : Tables) (uid : String) : List String :=
  ((s.remoteChannels.lookup uid).getD []).filter fun folded => folded ∈ s.channels

namespace Server

/-- Take a remote user out of one channel, telling the local members not yet told. -/
def purgeMembership (uid reason : String) (user : Option RemoteUser) (state : Server × List UInt64)
    (folded : String) : Server × List UInt64 :=
  let (s, notified) := state
  match s.findChannel folded with
  | none => (s, notified)
  | some channel =>
    if uid ∈ channel.remoteMembers then
      let s := s.modifyChannel folded fun channel => channel.dropRemote uid
      match user with
      -- a user unknown by now leaves in silence
      | none => (s.reapChannel folded, notified)
      | some user =>
        let quit := Line.user user.nick user.user user.host |>.command "QUIT" |>.trailing reason |>.build
        let unaware := channel.members.keys.filter fun id => id ∉ notified
        let s := s.sendAll unaware quit
        let s := s.recordChannelEvent folded channel.name user.hostmask .quit reason
        (s.reapChannel folded, notified ++ unaware)
    else (s, notified)

/-- Remove a remote user from every channel it is in. -/
def purgeRemoteMemberships (s : Server) (uid reason : String) : Server :=
  match s.remoteChannels.lookup uid with
  | none => s
  | some foldedSet =>
    let s := { s with remoteChannels := s.remoteChannels.erase uid }
    (foldedSet.foldl (purgeMembership uid reason (s.remoteUserByUid uid)) (s, [])).1

end Server

/-! ## What these do to the channel table -/

/-- The channel table after reaping. -/
def reap (channels : Table String ChannelEntry) (folded : String) : Table String ChannelEntry :=
  match channels.lookup folded with
  | none => channels
  | some channel => if channel.isIdle then channels.erase folded else channels

/-- The channel table after a remote user left one channel. -/
def leave (uid : String) (channels : Table String ChannelEntry) (folded : String) :
    Table String ChannelEntry :=
  match channels.lookup folded with
  | none => channels
  | some channel =>
    if uid ∈ channel.remoteMembers then
      reap (channels.modify folded fun channel => channel.dropRemote uid) folded
    else channels

/-- What is left of a channel once a remote user has left it. -/
def ChannelEntry.afterLeave (channel : ChannelEntry) (uid : String) : Option ChannelEntry :=
  if uid ∈ channel.remoteMembers then
    if (channel.dropRemote uid).isIdle then none else some (channel.dropRemote uid)
  else some channel

theorem lookup_reap (channels : Table String ChannelEntry) (folded other : String) :
    (reap channels folded).lookup other =
      if other = folded then (channels.lookup folded).filter fun channel => !channel.isIdle
      else channels.lookup other := by
  rw [reap]
  cases found : channels.lookup folded with
  | none =>
    by_cases same : other = folded
    · rw [if_pos same, same, found]
      rfl
    · rw [if_neg same]
  | some channel =>
    cases idle : channel.isIdle with
    | true => simp [Option.filter, idle, Table.lookup_erase_if]
    | false =>
      by_cases same : other = folded
      · subst same
        simp [Option.filter, found, idle]
      · simp [same, idle]

theorem reap_of_busy {channels : Table String ChannelEntry} {folded : String} {channel : ChannelEntry}
    (found : channels.lookup folded = some channel) (busy : channel.isIdle = false) :
    reap channels folded = channels := by
  simp only [reap, found, busy, Bool.false_eq_true, if_false]

theorem lookup_leave (uid : String) (channels : Table String ChannelEntry) (folded other : String) :
    (leave uid channels folded).lookup other =
      if other = folded then (channels.lookup folded).bind fun channel => channel.afterLeave uid
      else channels.lookup other := by
  rw [leave]
  cases found : channels.lookup folded with
  | none =>
    by_cases same : other = folded
    · rw [if_pos same, same, found]
      rfl
    · rw [if_neg same]
  | some channel =>
    simp only [Option.bind_some, ChannelEntry.afterLeave]
    by_cases member : uid ∈ channel.remoteMembers
    · rw [if_pos member, if_pos member, lookup_reap, Table.lookup_modify, Table.lookup_modify, found]
      by_cases same : other = folded
      · simp only [same, if_true, Option.map_some, Option.filter_some]
        cases (channel.dropRemote uid).isIdle <;> rfl
      · simp [same]
    · rw [if_neg member, if_neg member]
      by_cases same : other = folded
      · rw [if_pos same, same, found]
      · rw [if_neg same]

theorem ChannelEntry.afterLeave_twice (channel : ChannelEntry) (uid : String) :
    (channel.afterLeave uid).bind (fun left => left.afterLeave uid) = channel.afterLeave uid := by
  have gone : uid ∉ (channel.dropRemote uid).remoteMembers := by
    rw [dropRemote, AList.mem_erase]
    exact fun both => both.1 rfl
  by_cases member : uid ∈ channel.remoteMembers
  · cases idle : (channel.dropRemote uid).isIdle with
    | true => simp [afterLeave, member, idle]
    | false => simp [afterLeave, member, idle, gone]
  · simp [afterLeave, member]

/-- Leaving a list of channels changes exactly these. -/
theorem lookup_leaveAll (uid : String) (names : List String) (channels : Table String ChannelEntry)
    (folded : String) :
    (names.foldl (leave uid) channels).lookup folded =
      if folded ∈ names then (channels.lookup folded).bind fun channel => channel.afterLeave uid
      else channels.lookup folded := by
  induction names generalizing channels with
  | nil => simp
  | cons name rest ih =>
    rw [List.foldl_cons, ih, lookup_leave]
    by_cases same : folded = name
    · subst same
      by_cases again : folded ∈ rest
      · simp only [if_pos again, if_true, List.mem_cons, true_or]
        rw [Option.bind_assoc]
        simp only [ChannelEntry.afterLeave_twice]
      · simp [again]
    · simp [same]

/-- The tables after a registered channel's record was refreshed. -/
def Tables.persisted (t : Tables) (folded : String) : Tables :=
  match t.registeredChannels.lookup folded, t.findChannel folded with
  | some record, some channel =>
    let record := buildRegistration folded record.founder channel
    { t with
      chanreg := t.chanreg.map fun rows => rows.insert folded record
      registeredChannels := t.registeredChannels.insert folded record }
  | _, _ => t

/-- Storing a record changes nothing but the records. -/
theorem Tables.persisted_frame (t : Tables) (folded : String) :
    ∃ records rows, t.persisted folded = { t with registeredChannels := records, chanreg := rows } := by
  rw [persisted]
  split
  · exact ⟨_, _, rfl⟩
  · exact ⟨t.registeredChannels, t.chanreg, rfl⟩

theorem Tables.persisted_channels (t : Tables) (folded : String) :
    (t.persisted folded).channels = t.channels := by
  obtain ⟨records, rows, same⟩ := t.persisted_frame folded
  rw [same]

namespace Server

@[simp] theorem persistRegistered_toTables (s : Server) (folded : String) :
    (s.persistRegistered folded).toTables = s.toTables.persisted folded := by
  rw [persistRegistered, Tables.persisted]
  cases s.registeredChannels.lookup folded with
  | none => rfl
  | some record => cases s.findChannel folded <;> rfl

@[simp] theorem persistRegistered_fx (s : Server) (folded : String) :
    (s.persistRegistered folded).fx = s.fx := by
  rw [persistRegistered]
  split <;> rfl

@[simp] theorem modifyChannel_toTables (s : Server) (folded : String)
    (change : ChannelEntry → ChannelEntry) :
    (s.modifyChannel folded change).toTables =
      { s.toTables with channels := s.channels.modify folded change } := rfl

@[simp] theorem modifyChannel_fx (s : Server) (folded : String)
    (change : ChannelEntry → ChannelEntry) : (s.modifyChannel folded change).fx = s.fx := rfl

@[simp] theorem reapChannel_toTables (s : Server) (folded : String) :
    (s.reapChannel folded).toTables = { s.toTables with channels := reap s.channels folded } := by
  rw [reapChannel, Tables.findChannel, reap]
  split
  · rfl
  · split <;> rfl

@[simp] theorem reapChannel_frames (s : Server) (folded : String) :
    (s.reapChannel folded).fx.frames = s.fx.frames := by
  rw [reapChannel]
  split
  · rfl
  · split <;> rfl

@[simp] theorem endJoin_toTables (s : Server) (folded : String) :
    (s.endJoin folded).toTables =
      { s.toTables with
        channels := reap (s.channels.modify folded fun channel =>
          { channel with joining := channel.joining - 1 }) folded } := by
  rw [endJoin, reapChannel_toTables]
  rfl

@[simp] theorem endJoin_frames (s : Server) (folded : String) :
    (s.endJoin folded).fx.frames = s.fx.frames := by
  rw [endJoin, reapChannel_frames]
  rfl

theorem purgeMembership_toTables (uid reason : String) (user : Option RemoteUser)
    (state : Server × List UInt64) (folded : String) :
    (purgeMembership uid reason user state folded).1.toTables =
        { state.1.toTables with channels := leave uid state.1.channels folded } ∧
      (purgeMembership uid reason user state folded).1.fx.frames = state.1.fx.frames := by
  obtain ⟨s, notified⟩ := state
  simp only [purgeMembership, leave, Tables.findChannel]
  cases s.channels.lookup folded with
  | none => exact ⟨rfl, rfl⟩
  | some channel =>
    by_cases member : uid ∈ channel.remoteMembers
    · cases user with
      | none => simp [member]
      | some user => simp [member]
    · simp [member]

theorem purgeAll_toTables (uid reason : String) (user : Option RemoteUser) (names : List String)
    (state : Server × List UInt64) :
    (names.foldl (purgeMembership uid reason user) state).1.toTables =
        { state.1.toTables with channels := names.foldl (leave uid) state.1.channels } ∧
      (names.foldl (purgeMembership uid reason user) state).1.fx.frames = state.1.fx.frames := by
  induction names generalizing state with
  | nil => exact ⟨rfl, rfl⟩
  | cons name rest ih =>
    obtain ⟨tables, frames⟩ := purgeMembership_toTables uid reason user state name
    obtain ⟨restTables, restFrames⟩ := ih (purgeMembership uid reason user state name)
    rw [List.foldl_cons, List.foldl_cons, restTables, restFrames, frames, tables]
    exact ⟨rfl, rfl⟩

/-- Purging empties a user's index entry and takes the user out of the channels in it. -/
@[simp] theorem purgeRemoteMemberships_toTables (s : Server) (uid reason : String) :
    (s.purgeRemoteMemberships uid reason).toTables =
      { s.toTables with
        channels := ((s.remoteChannels.lookup uid).getD []).foldl (leave uid) s.channels
        remoteChannels := s.remoteChannels.erase uid } := by
  rw [purgeRemoteMemberships]
  cases found : s.remoteChannels.lookup uid with
  | none =>
    have same := Table.erase_of_notMem (AList.lookup_eq_none.mp found)
    simp only [Option.getD_none, List.foldl_nil, same]
  | some names => exact (purgeAll_toTables uid reason _ names _).1

@[simp] theorem purgeRemoteMemberships_frames (s : Server) (uid reason : String) :
    (s.purgeRemoteMemberships uid reason).fx.frames = s.fx.frames := by
  rw [purgeRemoteMemberships]
  split
  · rfl
  · exact (purgeAll_toTables uid reason _ _ _).2

end Server

end Ferrixd
