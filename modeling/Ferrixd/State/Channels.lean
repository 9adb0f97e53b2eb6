import Ferrixd.State.Users

/-! # Channels and remote members

Joins, parts, kicks, topics and renames that arrive over a link, and the rule that the
older of two channels of one name wins. -/

namespace Ferrixd

def rplTopic : Nat := 332

def rplNamReply : Nat := 353

def rplEndOfNames : Nat := 366

/-! ## Delivery to the local members -/

namespace Server

def toClient (s : Server) (id : UInt64) (event : Event) : Server :=
  s.sendEvent [id] event

/-- Queue bytes for every local member but one. -/
def broadcast (s : Server) (channel : ChannelEntry) (bytes : Bytes) (except : Option UInt64) : Server :=
  s.sendAll (channel.members.keys.filter fun id => some id ≠ except) bytes

def toChannel (s : Server) (channel : ChannelEntry) (event : Event) (except : Option UInt64) : Server :=
  s.sendEvent (channel.members.keys.filter fun id => some id ≠ except) event

/-- Only to members that have a capability. -/
def toChannelCapped (s : Server) (channel : ChannelEntry) (event : Event) (required : Cap)
    (except : Option UInt64) : Server :=
  s.sendEvent (channel.members.keys.filter fun id => some id ≠ except ∧ (s.entry id).caps.has required) event

/-- Only to members holding a status: ops, or also the voiced ones. -/
def toChannelStatus (s : Server) (channel : ChannelEntry) (event : Event) (opOnly : Bool)
    (except : Option UInt64) : Server :=
  let holders := channel.members.entries.filter fun member =>
    some member.1 ≠ except ∧ (member.2.op ∨ (¬ opOnly ∧ member.2.voice))
  s.sendEvent (holders.map (·.1)) event

end Server

namespace Tables

/-- The display source of a link event: the acting user's mask, our name for `*`. -/
def remoteSourceMask (t : Tables) (source : String) : String :=
  if source = "*" then t.info.name
  else match (t.localIdOfUid source).bind t.indexed with
    | some id => (t.entry id).hostmask
    | none =>
      match t.remoteUserByUid source with
      | some user => user.hostmask
      | none => source

def remoteSourceNick (t : Tables) (source : String) : String :=
  beforeChar (t.remoteSourceMask source) '!'

end Tables

/-! ## Channel timestamps -/

/-- The flags of a mode change as they accumulate. -/
structure ModeAccum where
  flags : String := ""
  sign : Option Bool := none
  applied : Nat := 0

def ModeAccum.push (accum : ModeAccum) (adding : Bool) (letter : Char) : ModeAccum :=
  let flags := if accum.sign = some adding then accum.flags
    else accum.flags.push (if adding then '+' else '-')
  ⟨flags.push letter, some adding, accum.applied + 1⟩

namespace ChannelEntry

/-- Whether our view of the channel is the older one. -/
def tsWinsOver (channel : ChannelEntry) (peerTs : UInt64) : Bool :=
  peerTs ≠ 0 ∧ channel.createdAt < peerTs

/-- Whether the peer's channel is older than ours. -/
def tsLosesTo (channel : ChannelEntry) (peerTs : UInt64) : Bool :=
  peerTs ≠ 0 ∧ peerTs < channel.createdAt

/-- What is left of a channel that loses to an older one. -/
def blanked (channel : ChannelEntry) (peerTs : UInt64) : ChannelEntry :=
  { channel with
    createdAt := peerTs
    modes := ⟨false, false, false, false, false, none, none⟩
    members := channel.members.mapVal fun _ _ => {}
    remoteMembers := channel.remoteMembers.mapVal fun _ member => { member with status := {} } }

/-- The status a member loses, in flags and arguments. -/
def dropStatus (echo : ModeAccum × List String) (status : MemberPrefix) (nick : String) :
    ModeAccum × List String :=
  let (accum, args) := echo
  let (accum, args) := if status.op then (accum.push false 'o', args ++ [nick]) else (accum, args)
  if status.voice then (accum.push false 'v', args ++ [nick]) else (accum, args)

/-- The deltas that take a channel down to a blank one. -/
def blankDeltas (channel : ChannelEntry) (nickOf : UInt64 → String) : ModeAccum × List String :=
  let accum := boolModes.foldl
    (fun accum mode => if mode.get channel.modes then accum.push false mode.letter else accum) {}
  let (accum, args) := if channel.modes.key.isSome then (accum.push false 'k', ["*"]) else (accum, [])
  let accum := if channel.modes.limit.isSome then accum.push false 'l' else accum
  let echo := channel.members.entries.foldl
    (fun echo member => dropStatus echo member.2 (nickOf member.1)) (accum, args)
  channel.remoteMembers.entries.foldl
    (fun echo member => dropStatus echo member.2.status member.2.nick) echo

/-- The channel after a timestamp conflict with a peer was resolved. -/
def reconciled (channel : ChannelEntry) (peerTs : UInt64) : ChannelEntry :=
  if channel.tsLosesTo peerTs then channel.blanked peerTs else channel

/-- A new channel takes the peer's timestamp, if that is known. -/
def dated (channel : ChannelEntry) (peerTs : UInt64) : ChannelEntry :=
  if 0 < peerTs then { channel with createdAt := peerTs } else channel

/-- Store a remote member with the user's identity; our older channel grants no status. -/
def addRemote (channel : ChannelEntry) (uid : String) (user : RemoteUser) (status : MemberPrefix)
    (peerTs : UInt64) : ChannelEntry :=
  let status := if channel.tsWinsOver peerTs then {} else status
  { channel with
    remoteMembers := channel.remoteMembers.insert uid
      ⟨user.nick, user.user, user.host, user.serverSid, status⟩ }

end ChannelEntry

namespace Server

/-- If the peer's channel is older, blank ours and tell the local members. -/
def reconcileChannelTs (s : Server) (folded : String) (peerTs : UInt64) : Server :=
  match s.findChannel folded with
  | none => s
  | some channel =>
    if channel.tsLosesTo peerTs then
      let (accum, args) := channel.blankDeltas fun id => (s.entry id).nick
      let s := s.modifyChannel folded fun channel => channel.blanked peerTs
      -- nothing that a client could see was taken away
      if accum.flags = "" then s
      else
        let line := Line.server s.info.name |>.command "MODE" |>.param channel.name |>.param accum.flags
        s.broadcast channel (args.foldl Line.param line).build none
    else s

/-! ## Joins and parts -/

/-- Announce a remote user's join to the local members. -/
def announceRemoteJoin (s : Server) (channel : ChannelEntry) (user : RemoteUser) : Server :=
  let event : Event := {
    body := Line.user user.nick user.user user.host |>.command "JOIN" |>.param channel.name |>.body
    account := user.account
    time := some (formatServerTime s.nowMillis)
    suffix := some (.extendedJoin, " " ++ user.account.getD "*" ++ " :" ++ user.realname) }
  (s.toChannel channel event none).recordChannelEvent (s.fold channel.name) channel.name user.hostmask
    .join ""

/-- A remote user joined a channel. -/
def remoteJoin (s : Server) (channelName uid : String) (status : MemberPrefix) (peerTs : UInt64) : Server :=
  match s.remoteUserByUid uid with
  | none => s
  | some user =>
    let folded := s.fold channelName
    let (s, created) := s.beginJoin folded channelName
    let s :=
      -- a channel that was not here takes the age that the peer gives it
      if created then s.modifyChannel folded fun channel => channel.dated peerTs
      else s.reconcileChannelTs folded peerTs
    match s.findChannel folded with
    | none => s
    | some channel =>
      let s := s.modifyChannel folded fun channel => channel.addRemote uid user status peerTs
      let names := (s.remoteChannels.lookup uid).getD []
      let s := { s with remoteChannels := s.remoteChannels.insert uid (names.insert folded) }
      -- a burst re-join only refreshes the membership
      let s := if uid ∈ channel.remoteMembers then s else s.announceRemoteJoin channel user
      s.endJoin folded

/-- A remote user left a channel. -/
def remotePart (s : Server) (channelName uid reason : String) : Server :=
  let folded := s.fold channelName
  match s.findChannel folded with
  | none => s
  | some channel =>
    if uid ∈ channel.remoteMembers then
      let s := (s.modifyChannel folded fun channel => channel.dropRemote uid).remoteChannelRemoved uid folded
      let s := match s.remoteUserByUid uid with
        | none => s
        | some user =>
          let part := Line.user user.nick user.user user.host |>.command "PART" |>.param channel.name
            |>.trailing reason |>.build
          (s.broadcast channel part none).recordChannelEvent folded channel.name user.hostmask .part reason
      s.reapChannel folded
    else s

/-- Apply a topic change. -/
def remoteTopic (s : Server) (channelName source setBy : String) (setAt : UInt64) (text : String) : Server :=
  let folded := s.fold channelName
  match s.findChannel folded with
  | none => s
  | some channel =>
    let s := s.modifyChannel folded fun channel =>
      { channel with topic := if text = "" then none else some ⟨text, setBy, setAt⟩ }
    let line := Line.server (s.remoteSourceMask source) |>.command "TOPIC" |>.param channel.name
      |>.trailing text |>.build
    let s := s.broadcast channel line none
    -- a burst restates existing state
    let s := if source = "*" then s
      else s.recordChannelEvent folded channel.name (s.remoteSourceMask source) .topic text
    s.persistRegistered folded

/-- Apply a kick of a local or remote member. -/
def remoteKick (s : Server) (channelName source targetUid reason : String) : Server :=
  let folded := s.fold channelName
  match s.findChannel folded with
  | none => s
  | some channel =>
    let mask := s.remoteSourceMask source
    let announce (s : Server) (nick : String) : Server :=
      let kick := Line.server mask |>.command "KICK" |>.param channel.name |>.param nick
        |>.trailing reason |>.build
      (s.broadcast channel kick none).recordChannelEvent folded channel.name mask .kick
        (nick ++ " " ++ reason)
    match s.localIdOfUid targetUid with
    | some id =>
      if id ∈ s.byId ∧ id ∈ channel.members then
        -- a local target is told too, and goes afterwards
        let s := announce s (s.entry id).nick
        let s := s.modifyChannel folded fun channel => channel.dropLocal id
        let s := s.modifyEntry id fun entry =>
          { entry with channels := entry.channels.filter fun name => name != folded }
        s.reapChannel folded
      else s
    | none =>
      match channel.remoteMembers.lookup targetUid with
      | none => s
      | some member =>
        let s := s.modifyChannel folded fun channel => channel.dropRemote targetUid
        let s := s.remoteChannelRemoved targetUid folded
        (announce s member.nick).reapChannel folded

end Server

/-! ## Renames -/

inductive RenameError where
  | noSuchChannel
  | nameInUse
  deriving DecidableEq

/-- One name exchanged for another in a set of names. -/
def exchange (old new : String) (names : List String) : List String :=
  (names.filter fun name => name != old).insert new

namespace Server

/-- Move the registration of a renamed channel. -/
def moveRegistration (s : Server) (oldFolded newFolded newName : String) : Server :=
  match s.registeredChannels.lookup oldFolded with
  | none => s
  | some record =>
    let record := { record with folded := newFolded, name := newName }
    let s := { s with
      registeredChannels := (s.registeredChannels.erase oldFolded).insert newFolded record
      chanreg := s.chanreg.map (AList.erase oldFolded) }
    s.persistRegistered newFolded

/-- Move the read markers of a renamed channel, whose keys end in its folded name. -/
def moveReadMarkers (s : Server) (oldFolded newFolded : String) : Server :=
  let moved := s.readMarkers.entries.filterMap fun marker =>
    (stripTail? marker.1 ("\x00" ++ oldFolded)).map fun owner => (marker.1, owner, marker.2)
  { s with
    readMarkers := moved.foldl
      (fun markers (key, owner, value) => (markers.erase key).insert (owner ++ "\x00" ++ newFolded) value)
      s.readMarkers }

/-- Exchange the name of a channel in the sets of its local and remote members. -/
def moveInSets (s : Server) (oldFolded newFolded : String) (channel : ChannelEntry) : Server :=
  let s := (channel.members.keys.filter fun id => id ∈ s.byId).foldl
    (fun s id => s.modifyEntry id fun entry =>
      { entry with channels := exchange oldFolded newFolded entry.channels }) s
  { s with
    remoteChannels := channel.remoteMembers.keys.foldl
      (fun index uid => index.modify uid (exchange oldFolded newFolded)) s.remoteChannels }

/-- Rename a channel in place. -/
def renameChannel (s : Server) (oldFolded newName : String) : Except RenameError Server :=
  let newFolded := s.fold newName
  match s.findChannel oldFolded with
  | none => .error .noSuchChannel
  | some channel =>
    -- only the case changes: the channel stays where it is filed
    if newFolded = oldFolded then
      .ok (s.modifyChannel oldFolded fun channel => { channel with name := newName })
    else if newFolded ∈ s.channels then .error .nameInUse
    else
      let channel := { channel with name := newName }
      let s := { s with channels := (s.channels.insert newFolded channel).erase oldFolded }
      let s := s.moveInSets oldFolded newFolded channel
      let s := s.emit fun fx => { fx with history := fx.history.renameTarget oldFolded newFolded }
      .ok ((s.moveRegistration oldFolded newFolded newName).moveReadMarkers oldFolded newFolded)

/-- What a member without the rename capability is shown: a part, a join and the new view. -/
def resyncMember (s : Server) (channel : ChannelEntry) (oldDisplay : String)
    (names : List (String × MemberPrefix)) (id : UInt64) : Server :=
  let entry := s.entry id
  let reply (code : Nat) : Line := Line.server s.info.name |>.code code |>.param entry.nick
  let multi := entry.caps.has .multiPrefix
  let rendered := names.map fun (nick, status) => status.render multi ++ nick
  let s := s.send id (Line.server entry.hostmask |>.command "PART" |>.param oldDisplay
    |>.trailing ("Channel renamed to " ++ channel.name) |>.build)
  let s := s.send id (Line.server entry.hostmask |>.command "JOIN" |>.param channel.name |>.build)
  let s := match channel.topic with
    | some topic => s.send id ((reply rplTopic).param channel.name |>.trailing topic.text |>.build)
    | none => s
  let s := (rendered.toChunks 12).foldl (fun s chunk => s.send id
    ((reply rplNamReply).param "=" |>.param channel.name |>.trailing (" ".intercalate chunk) |>.build)) s
  s.send id ((reply rplEndOfNames).param channel.name |>.trailing "End of /NAMES list" |>.build)

/-- Announce a rename to the local members. -/
def broadcastRename (s : Server) (folded oldDisplay sourceMask reason : String) : Server :=
  match s.findChannel folded with
  | none => s
  | some channel =>
    let names := channel.members.entries.map (fun member => ((s.entry member.1).nick, member.2)) ++
      channel.remoteMembers.values.map fun member => (member.nick, member.status)
    let line := Line.server sourceMask |>.command "RENAME" |>.param oldDisplay |>.param channel.name
    let line := if reason = "" then line else line.trailing reason
    let event : Event := { body := line.body, time := some (formatServerTime s.nowMillis) }
    channel.members.keys.foldl
      (fun s id =>
        -- clients without the capability are shown a part and a join
        if (s.entry id).caps.has .channelRename then s.toClient id event
        else s.resyncMember channel oldDisplay names id) s

/-- Apply a channel rename. -/
def remoteRename (s : Server) (source old new reason : String) : Server :=
  match s.renameChannel (s.fold old) new with
  | .error _ => s
  | .ok renamed => renamed.broadcastRename (s.fold new) old (renamed.remoteSourceMask source) reason

end Server

/-! ## What these do to the tables -/

namespace ChannelEntry

theorem addRemote_not_idle (channel : ChannelEntry) (uid : String) (user : RemoteUser)
    (status : MemberPrefix) (peerTs : UInt64) :
    (channel.addRemote uid user status peerTs).isIdle = false := by
  have nonempty : (channel.addRemote uid user status peerTs).remoteMembers.entries.isEmpty = false := by
    rw [addRemote, AList.entries_insert]
    rfl
  simp [isIdle, nonempty]

/-- The join in flight does not matter to what a join does to a channel. -/
theorem joined_joining (channel : ChannelEntry) (uid : String) (user : RemoteUser)
    (status : MemberPrefix) (peerTs : UInt64) :
    let inFlight := ({ channel with joining := channel.joining + 1 } : ChannelEntry).reconciled peerTs
      |>.addRemote uid user status peerTs
    { inFlight with joining := inFlight.joining - 1 } =
      (channel.reconciled peerTs).addRemote uid user status peerTs := by
  by_cases loses : channel.tsLosesTo peerTs = true
  · have losesInFlight : ({ channel with joining := channel.joining + 1 } : ChannelEntry).tsLosesTo peerTs =
        true := loses
    simp only [reconciled, if_pos loses, if_pos losesInFlight]
    rfl
  · have keepsInFlight : ¬ ({ channel with joining := channel.joining + 1 } : ChannelEntry).tsLosesTo
        peerTs = true := loses
    simp only [reconciled, if_neg loses, if_neg keepsInFlight]
    rfl

theorem created_joining (channel : ChannelEntry) (uid : String) (user : RemoteUser)
    (status : MemberPrefix) (peerTs : UInt64) :
    let inFlight := ({ channel with joining := channel.joining + 1 } : ChannelEntry).dated peerTs
      |>.addRemote uid user status peerTs
    { inFlight with joining := inFlight.joining - 1 } =
      (channel.dated peerTs).addRemote uid user status peerTs := by
  by_cases known : 0 < peerTs
  · simp only [dated, if_pos known]
    rfl
  · simp only [dated, if_neg known]
    rfl

end ChannelEntry

namespace Tables

/-- The tables after a remote user joined a channel. -/
def joined (t : Tables) (channelName uid : String) (user : RemoteUser) (status : MemberPrefix)
    (peerTs : UInt64) : Tables :=
  let folded := t.fold channelName
  { t with
    channels := if folded ∈ t.channels then
        t.channels.modify folded fun channel =>
          (channel.reconciled peerTs).addRemote uid user status peerTs
      else t.channels.insert folded
        (((t.freshChannel folded channelName).dated peerTs).addRemote uid user status peerTs)
    remoteChannels := t.remoteChannels.insert uid (((t.remoteChannels.lookup uid).getD []).insert folded) }

/-- The tables after a remote member was taken out of a channel, in both places. -/
def parted (t : Tables) (folded uid : String) : Tables :=
  { t with
    channels := reap (t.channels.modify folded fun channel => channel.dropRemote uid) folded
    remoteChannels := t.remoteChannels.modify uid fun names => names.filter fun name => name != folded }

/-- The tables after a local member was taken out of a channel, in both places. -/
def partedLocal (t : Tables) (folded : String) (id : UInt64) : Tables :=
  { t with
    channels := reap (t.channels.modify folded fun channel => channel.dropLocal id) folded
    entries := t.entries.insert id { t.entry id with
      channels := (t.entry id).channels.filter fun name => name != folded } }

end Tables

namespace Server

@[simp] theorem toClient_toTables (s : Server) (id : UInt64) (event : Event) :
    (s.toClient id event).toTables = s.toTables := rfl

@[simp] theorem toClient_frames (s : Server) (id : UInt64) (event : Event) :
    (s.toClient id event).fx.frames = s.fx.frames := rfl

@[simp] theorem broadcast_toTables (s : Server) (channel : ChannelEntry) (bytes : Bytes)
    (except : Option UInt64) : (s.broadcast channel bytes except).toTables = s.toTables := rfl

@[simp] theorem broadcast_frames (s : Server) (channel : ChannelEntry) (bytes : Bytes)
    (except : Option UInt64) : (s.broadcast channel bytes except).fx.frames = s.fx.frames := rfl

@[simp] theorem toChannel_toTables (s : Server) (channel : ChannelEntry) (event : Event)
    (except : Option UInt64) : (s.toChannel channel event except).toTables = s.toTables := rfl

@[simp] theorem toChannel_frames (s : Server) (channel : ChannelEntry) (event : Event)
    (except : Option UInt64) : (s.toChannel channel event except).fx.frames = s.fx.frames := rfl

@[simp] theorem toChannelCapped_toTables (s : Server) (channel : ChannelEntry) (event : Event)
    (required : Cap) (except : Option UInt64) :
    (s.toChannelCapped channel event required except).toTables = s.toTables := rfl

@[simp] theorem toChannelStatus_toTables (s : Server) (channel : ChannelEntry) (event : Event)
    (opOnly : Bool) (except : Option UInt64) :
    (s.toChannelStatus channel event opOnly except).toTables = s.toTables := rfl

@[simp] theorem announceRemoteJoin_toTables (s : Server) (channel : ChannelEntry) (user : RemoteUser) :
    (s.announceRemoteJoin channel user).toTables = s.toTables := rfl

@[simp] theorem announceRemoteJoin_frames (s : Server) (channel : ChannelEntry) (user : RemoteUser) :
    (s.announceRemoteJoin channel user).fx.frames = s.fx.frames := rfl

@[simp] theorem reconcileChannelTs_toTables (s : Server) (folded : String) (peerTs : UInt64) :
    (s.reconcileChannelTs folded peerTs).toTables =
      { s.toTables with channels := s.channels.modify folded fun channel => channel.reconciled peerTs } := by
  rw [reconcileChannelTs, Tables.findChannel]
  cases found : s.channels.lookup folded with
  | none => simp only [Table.modify_of_notMem (AList.lookup_eq_none.mp found)]
  | some channel =>
    by_cases loses : channel.tsLosesTo peerTs = true
    · have blank : s.channels.modify folded (fun channel => channel.blanked peerTs) =
          s.channels.modify folded fun channel => channel.reconciled peerTs := by
        refine Table.modify_congr fun value stored => ?_
        cases found.symm.trans stored
        rw [ChannelEntry.reconciled, if_pos loses]
      simp only [if_pos loses]
      split
      · simp only [modifyChannel_toTables, blank]
      · simp only [broadcast_toTables, modifyChannel_toTables, blank]
    · have fixed : s.channels.modify folded (fun channel => channel.reconciled peerTs) = s.channels := by
        refine Table.modify_eq_self fun value stored => ?_
        cases found.symm.trans stored
        rw [ChannelEntry.reconciled, if_neg loses]
      simp only [if_neg loses, fixed]

@[simp] theorem reconcileChannelTs_frames (s : Server) (folded : String) (peerTs : UInt64) :
    (s.reconcileChannelTs folded peerTs).fx.frames = s.fx.frames := by
  rw [reconcileChannelTs]
  split
  · rfl
  · split
    · dsimp only
      split <;> rfl
    · rfl

/-- A join stores the member in the channel, which it creates if need be, and in the index. -/
theorem remoteJoin_toTables {s : Server} {uid : String} {user : RemoteUser}
    (known : s.remoteUserByUid uid = some user) (channelName : String) (status : MemberPrefix)
    (peerTs : UInt64) :
    (s.remoteJoin channelName uid status peerTs).toTables =
      s.toTables.joined channelName uid user status peerTs := by
  cases found : s.channels.lookup (s.fold channelName) with
  | some channel =>
    -- the mark of the join is set and taken back, and a channel with the new member is not reaped
    have present : s.fold channelName ∈ s.channels := AList.lookup_isSome.mp (by rw [found]; rfl)
    have stored : ((s.channels.modify (s.fold channelName) fun channel =>
        (channel.reconciled peerTs).addRemote uid user status peerTs)).lookup (s.fold channelName) =
          some ((channel.reconciled peerTs).addRemote uid user status peerTs) := by
      rw [Table.lookup_modify, if_pos rfl, found, Option.map_some]
    simp only [remoteJoin, known, beginJoin, Tables.findChannel, found, Bool.false_eq_true, if_false,
      reconcileChannelTs_toTables, modifyChannel_toTables, Table.lookup_modify, if_true, Option.map_some,
      endJoin_toTables, Tables.joined, if_pos present]
    split <;>
    · simp only [announceRemoteJoin_toTables, Table.modify_modify, ChannelEntry.joined_joining]
      rw [reap_of_busy stored (ChannelEntry.addRemote_not_idle _ _ _ _ _)]
  | none =>
    have absent : s.fold channelName ∉ s.channels := AList.lookup_eq_none.mp found
    simp only [remoteJoin, known, beginJoin, Tables.findChannel, found, if_true,
      modifyChannel_toTables, Table.modify_insert, AList.lookup_insert, endJoin_toTables, Tables.joined,
      if_neg absent]
    split <;>
    · simp only [announceRemoteJoin_toTables, Table.modify_insert, ChannelEntry.created_joining]
      rw [reap_of_busy (AList.lookup_insert _) (ChannelEntry.addRemote_not_idle _ _ _ _ _)]

theorem remoteJoin_unknown {s : Server} {uid : String} (unknown : s.remoteUserByUid uid = none)
    (channelName : String) (status : MemberPrefix) (peerTs : UInt64) :
    s.remoteJoin channelName uid status peerTs = s := by
  simp only [remoteJoin, unknown]

theorem remotePart_toTables (s : Server) (channelName uid reason : String) :
    (s.remotePart channelName uid reason).toTables =
      if (s.findChannel (s.fold channelName)).any fun channel => uid ∈ channel.remoteMembers then
        s.toTables.parted (s.fold channelName) uid
      else s.toTables := by
  rw [remotePart]
  cases found : s.findChannel (s.fold channelName) with
  | none => rfl
  | some channel =>
    by_cases member : uid ∈ channel.remoteMembers
    · simp only [Option.any_some, member, decide_true, if_true]
      split <;> simp only [reapChannel_toTables, recordChannelEvent_toTables, broadcast_toTables] <;> rfl
    · simp only [Option.any_some, member, decide_false, Bool.false_eq_true, if_false]

@[simp] theorem remotePart_frames (s : Server) (channelName uid reason : String) :
    (s.remotePart channelName uid reason).fx.frames = s.fx.frames := by
  rw [remotePart]
  split
  · rfl
  · split
    · dsimp only
      rw [reapChannel_frames]
      split <;> rfl
    · rfl

theorem remoteTopic_toTables (s : Server) (channelName source setBy : String) (setAt : UInt64)
    (text : String) :
    (s.remoteTopic channelName source setBy setAt text).toTables =
      if s.fold channelName ∈ s.channels then
        { s.toTables with
          channels := s.channels.modify (s.fold channelName) fun channel =>
            { channel with topic := if text = "" then none else some ⟨text, setBy, setAt⟩ } }.persisted
          (s.fold channelName)
      else s.toTables := by
  rw [remoteTopic]
  cases found : s.findChannel (s.fold channelName) with
  | none => rw [if_neg (AList.lookup_eq_none.mp found)]
  | some channel =>
    rw [if_pos (AList.lookup_isSome.mp (Option.isSome_of_mem found))]
    dsimp only
    rw [persistRegistered_toTables]
    split <;> rfl

/-- A kick takes a member out of a channel: a local one, a remote one, or nobody. -/
theorem remoteKick_toTables (s : Server) (channelName source targetUid reason : String) :
    (s.remoteKick channelName source targetUid reason).toTables = s.toTables ∨
      (∃ id, s.localIdOfUid targetUid = some id ∧
        (s.remoteKick channelName source targetUid reason).toTables =
          s.toTables.partedLocal (s.fold channelName) id) ∨
      (s.localIdOfUid targetUid = none ∧
        ((s.findChannel (s.fold channelName)).any fun channel => targetUid ∈ channel.remoteMembers) = true ∧
        (s.remoteKick channelName source targetUid reason).toTables =
          s.toTables.parted (s.fold channelName) targetUid) := by
  rw [remoteKick]
  cases found : s.findChannel (s.fold channelName) with
  | none => exact .inl rfl
  | some channel =>
    -- our own UIDs never reach the remote members
    cases own : s.localIdOfUid targetUid with
    | some id =>
      dsimp only
      split
      · refine .inr (.inl ⟨id, rfl, ?_⟩)
        rw [reapChannel_toTables]
        rfl
      · exact .inl rfl
    | none =>
      cases member : channel.remoteMembers.lookup targetUid with
      | none =>
        simp only [member]
        exact .inl trivial
      | some record =>
        have present : targetUid ∈ channel.remoteMembers :=
          AList.lookup_isSome.mp (by rw [member]; rfl)
        simp only [member]
        refine .inr (.inr ⟨trivial, by simp [present], ?_⟩)
        rw [reapChannel_toTables]
        rfl

theorem moveInSets_rooms (s : Server) (oldFolded newFolded : String) (channel : ChannelEntry) :
    let after := s.moveInSets oldFolded newFolded channel
    after.toTopology = s.toTopology ∧ after.toRegistry = s.toRegistry ∧ after.info = s.info ∧
      after.channels = s.channels ∧
      after.remoteChannels = channel.remoteMembers.keys.foldl
        (fun index uid => index.modify uid (exchange oldFolded newFolded)) s.remoteChannels := by
  -- the clients' sets are in their own table
  have clients := foldl_invariant (I := fun later : Server => later.toTopology = s.toTopology ∧
      later.toRegistry = s.toRegistry ∧ later.info = s.info ∧ later.channels = s.channels ∧
      later.remoteChannels = s.remoteChannels)
    (fun s id => s.modifyEntry id fun entry =>
      { entry with channels := exchange oldFolded newFolded entry.channels })
    (channel.members.keys.filter fun id => id ∈ s.byId) (fun _ _ _ same => same) s
    ⟨rfl, rfl, rfl, rfl, rfl⟩
  obtain ⟨topology, registry, info, channels, index⟩ := clients
  refine ⟨topology, registry, info, channels, ?_⟩
  rw [moveInSets]
  exact congrArg (channel.remoteMembers.keys.foldl
    (fun index uid => index.modify uid (exchange oldFolded newFolded))) index

theorem moveRegistration_rooms (s : Server) (oldFolded newFolded newName : String) :
    let after := s.moveRegistration oldFolded newFolded newName
    after.toTopology = s.toTopology ∧ after.toRegistry = s.toRegistry ∧
      after.channels = s.channels ∧ after.remoteChannels = s.remoteChannels ∧ after.info = s.info := by
  rw [moveRegistration]
  split
  · exact ⟨rfl, rfl, rfl, rfl, rfl⟩
  · simp only [persistRegistered_toTables, Tables.persisted]
    split <;> exact ⟨rfl, rfl, rfl, rfl, rfl⟩

/-- A successful rename changes the display name, or moves the channel and its memberships to a
free name. -/
theorem renameChannel_ok {s s' : Server} {oldFolded newName : String}
    (renamed : s.renameChannel oldFolded newName = .ok s') :
    (s'.toTopology = s.toTopology ∧ s'.toRegistry = s.toRegistry ∧ s'.info = s.info) ∧
      ((s.fold newName = oldFolded ∧ s'.remoteChannels = s.remoteChannels ∧
          s'.channels = s.channels.modify oldFolded fun channel => { channel with name := newName }) ∨
        ∃ channel, s.findChannel oldFolded = some channel ∧ s.fold newName ≠ oldFolded ∧
          s.fold newName ∉ s.channels ∧
          s'.channels = (s.channels.insert (s.fold newName) { channel with name := newName }).erase oldFolded ∧
          s'.remoteChannels = channel.remoteMembers.keys.foldl
            (fun index uid => index.modify uid (exchange oldFolded (s.fold newName))) s.remoteChannels) := by
  rw [renameChannel] at renamed
  cases found : s.findChannel oldFolded with
  | none => simp [found] at renamed
  | some channel =>
    simp only [found] at renamed
    by_cases sameFold : s.fold newName = oldFolded
    · -- only the case changes: nothing moves
      rw [if_pos sameFold] at renamed
      cases renamed
      exact ⟨⟨rfl, rfl, rfl⟩, .inl ⟨sameFold, rfl, rfl⟩⟩
    · rw [if_neg sameFold] at renamed
      by_cases taken : s.fold newName ∈ s.channels
      · rw [if_pos taken] at renamed
        cases renamed
      · rw [if_neg taken] at renamed
        cases renamed
        obtain ⟨topology, registry, info, channels, index⟩ := moveInSets_rooms
          { s with channels :=
              (s.channels.insert (s.fold newName) { channel with name := newName }).erase oldFolded }
          oldFolded (s.fold newName) { channel with name := newName }
        obtain ⟨movedTopology, movedRegistry, movedChannels, movedIndex, movedInfo⟩ :=
          moveRegistration_rooms
            ((moveInSets { s with channels :=
                (s.channels.insert (s.fold newName) { channel with name := newName }).erase oldFolded }
              oldFolded (s.fold newName) { channel with name := newName }).emit fun fx =>
                { fx with history := fx.history.renameTarget oldFolded (s.fold newName) })
            oldFolded (s.fold newName) newName
        exact ⟨⟨movedTopology.trans topology, movedRegistry.trans registry, movedInfo.trans info⟩,
          .inr ⟨channel, rfl, sameFold, taken, movedChannels.trans channels, movedIndex.trans index⟩⟩

@[simp] theorem resyncMember_toTables (s : Server) (channel : ChannelEntry) (oldDisplay : String)
    (names : List (String × MemberPrefix)) (id : UInt64) :
    (s.resyncMember channel oldDisplay names id).toTables = s.toTables := by
  simp only [resyncMember, send_toTables]
  refine foldl_invariant (I := fun later : Server => later.toTables = s.toTables) _ _ ?_ _ ?_
  · intro later chunk _ same
    exact same
  · split <;> rfl

@[simp] theorem broadcastRename_toTables (s : Server) (folded oldDisplay sourceMask reason : String) :
    (s.broadcastRename folded oldDisplay sourceMask reason).toTables = s.toTables := by
  rw [broadcastRename]
  split
  · rfl
  · refine foldl_invariant (I := fun later : Server => later.toTables = s.toTables) _ _ ?_ s rfl
    intro later id _ same
    split
    · exact same
    · rw [resyncMember_toTables, same]

theorem remoteRename_toTables (s : Server) (source old new reason : String) :
    (s.remoteRename source old new reason).toTables = s.toTables ∨
      ∃ renamed, s.renameChannel (s.fold old) new = .ok renamed ∧
        (s.remoteRename source old new reason).toTables = renamed.toTables := by
  rw [remoteRename]
  cases result : s.renameChannel (s.fold old) new with
  | error _ => exact .inl rfl
  | ok renamed => exact .inr ⟨renamed, rfl, broadcastRename_toTables _ _ _ _ _⟩

end Server

end Ferrixd
