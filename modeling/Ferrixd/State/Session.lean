import Ferrixd.State.Channels

/-! # Local clients

What the commands of a local client do to the server's state, and what they tell its peers. -/

namespace Ferrixd

def rplTopicWhoTime : Nat := 333
def errNoSuchNick : Nat := 401
def errNoSuchChannel : Nat := 403
def errTooManyChannels : Nat := 405
def errErroneusNickname : Nat := 432
def errNicknameInUse : Nat := 433
def errUserNotInChannel : Nat := 441
def errNotOnChannel : Nat := 442
def errChannelIsFull : Nat := 471
def errInviteOnlyChan : Nat := 473
def errBannedFromChan : Nat := 474
def errBadChannelKey : Nat := 475
def errChanOPrivsNeeded : Nat := 482

def maxKickLen : Nat := 300

/-- The first `max` characters. -/
def truncateChars (text : String) (max : Nat) : String :=
  String.ofList (text.toList.take max)

/-- Match a list mask, which may be an account mask. -/
def banMatches (mask hostmask : String) (account : Option String) : Bool :=
  match stripLead? mask "~a:" with
  | some pattern => account.any fun account => maskMatches pattern account
  | none => maskMatches mask hostmask

namespace ChannelEntry

def isBanned (channel : ChannelEntry) (hostmask : String) (account : Option String) : Bool :=
  channel.bans.any fun ban => banMatches ban.mask hostmask account

def isExcepted (channel : ChannelEntry) (hostmask : String) (account : Option String) : Bool :=
  channel.exceptions.any fun ban => banMatches ban.mask hostmask account

def matchesInvex (channel : ChannelEntry) (hostmask : String) (account : Option String) : Bool :=
  channel.invex.any fun ban => banMatches ban.mask hostmask account

/-- Why a client may not join, if it may not. -/
def joinRejection (channel : ChannelEntry) (entry : ClientEntry) (foldedNick : String)
    (key : Option String) : Option (Nat × String) :=
  if !entry.oper && channel.isBanned entry.hostmask entry.account &&
      !channel.isExcepted entry.hostmask entry.account then
    some (errBannedFromChan, "Cannot join channel (+b)")
  else if channel.modes.inviteOnly && !channel.invited.contains foldedNick && !entry.oper &&
      !channel.matchesInvex entry.hostmask entry.account then
    some (errInviteOnlyChan, "Cannot join channel (+i)")
  -- operators and those invited need the key too
  else if channel.modes.key.isSome && channel.modes.key != key then
    some (errBadChannelKey, "Cannot join channel (+k)")
  -- remote members do not count
  else if channel.modes.limit.any fun limit => limit.toNat ≤ channel.members.keys.length then
    some (errChannelIsFull, "Cannot join channel (+l)")
  else none

/-- Store a local member. -/
def addLocal (channel : ChannelEntry) (id : UInt64) (status : MemberPrefix) : ChannelEntry :=
  { channel with members := channel.members.insert id status }

end ChannelEntry

namespace Server

/-! ## Replies -/

def numeric (s : Server) (id : UInt64) (code : Nat) (params : List String) (text : Option String) : Server :=
  let line := params.foldl Line.param (Line.server s.info.name |>.code code |>.param (s.entry id).nick)
  s.send id (text.elim line line.trailing).build

/-- A `FAIL` standard reply, or a notice to a client without standard replies. -/
def fail (s : Server) (id : UInt64) (command code : String) (context : List String) (text : String) : Server :=
  if (s.entry id).caps.has .standardReplies then
    let line := Line.server s.info.name |>.command "FAIL" |>.param command |>.param code
    s.send id ((context.foldl Line.param line).trailing text).build
  else
    s.send id (Line.server s.info.name |>.command "NOTICE" |>.param (s.entry id).nick
      |>.trailing (command ++ " " ++ code ++ ": " ++ text) |>.build)

/-- An event of a client, with the time and the account. -/
def event (s : Server) (id : UInt64) (body : String) : Event :=
  { body, time := some (formatServerTime s.nowMillis), account := (s.entry id).account }

def userLine (s : Server) (id : UInt64) : Line :=
  Line.user (s.entry id).nick (s.entry id).user (s.entry id).host

/-- Deliver an event once to everyone who shares a channel with a client. -/
def propagate (s : Server) (id : UInt64) (event : Event) : Server :=
  let shared := (s.entry id).channels.flatMap fun folded =>
    ((s.findChannel folded).map fun channel => channel.members.keys).getD []
  s.sendEvent (shared.filter fun other => other != id).eraseDups event

/-! ## Nicks -/

/-- A new connection gets the next id. -/
def connect (s : Server) (host : String) : Server :=
  { s with
    nextId := s.nextId + 1
    entries := s.entries.insert s.nextId { host, realIp := host } }

/-- Claim a folded nick unless another client or a remote user holds it. -/
def claimNick (s : Server) (folded : String) (id : UInt64) : Server × Bool :=
  if folded ∈ s.remoteUsers then (s, false)
  else match s.clients.lookup folded with
    | some holder => (s, holder = id)
    | none => ({ s with clients := s.clients.insert folded id, byId := s.byId.insert id }, true)

def releaseNick (s : Server) (folded : String) : Server :=
  { s with clients := s.clients.erase folded }

/-- Announce a nick change to the client and everyone sharing a channel. -/
def broadcastNickChange (s : Server) (id : UInt64) (old new : String) : Server :=
  let entry := s.entry id
  let event := s.event id (Line.user old entry.user entry.host |>.command "NICK" |>.trailing new |>.body)
  let s := (s.toClient id event).propagate id event
  entry.channels.foldl
    (fun s folded =>
      match s.findChannel folded with
      | none => s
      | some channel =>
        s.recordChannelEvent folded channel.name (hostmask old entry.user entry.host) .nick new) s

def propagateNickChange (s : Server) (id : UInt64) (newNick : String) : Server :=
  s.propagateToLinks (.nick (s.localUid id) newNick)

def setNick (s : Server) (id : UInt64) (nick : String) : Server :=
  s.modifyEntry id fun entry => { entry with nick }

/-- `NICK`.  A client that has no nick yet may complete its registration afterwards. -/
def cmdNick (s : Server) (id : UInt64) (nick : String) : Server :=
  if !isValidNick nick then
    s.numeric id errErroneusNickname [nick] (some "Erroneous nickname")
  else
    let folded := s.fold nick
    let current := (s.entry id).nick
    let currentFolded := if current = "*" then "" else s.fold current
    let registered := (s.entry id).registered
    -- its own nick, perhaps in another case
    if currentFolded ≠ "" ∧ folded = currentFolded then
      if current = nick then s
      else
        let s := s.setNick id nick
        if registered then (s.broadcastNickChange id current nick).propagateNickChange id nick else s
    else match s.claimNick folded id with
      | (s, false) => s.numeric id errNicknameInUse [nick] (some "Nickname is already in use")
      | (s, true) =>
        -- the old nick is released only now, when the new one is held
        let s := if currentFolded = "" then s else s.releaseNick currentFolded
        let s := s.setNick id nick
        if registered then
          let entry := s.entry id
          let s := s.recordWhowas current entry.user entry.host entry.realname
          let s := (s.broadcastNickChange id current nick).propagateNickChange id nick
          (s.monitorOffline current).monitorOnline nick entry.hostmask
        else s

/-! ## Registration and departure -/

/-- Announce a registered client to all peers. -/
def introduceLocal (s : Server) (id : UInt64) : Server :=
  let entry := s.entry id
  let s := s.propagateToLinks (.uid s.info.sid (s.localUid id) 0 entry.nick entry.user entry.host
    (entry.account.getD "*") entry.realname)
  match umodeFlags entry.oper entry.invisible entry.bot with
  | some flags => s.propagateToLinks (.sumode (s.localUid id) flags)
  | none => s

/-- Announce a departing client to all peers. -/
def withdrawLocal (s : Server) (id : UInt64) (reason : String) : Server :=
  s.propagateToLinks (.quit (s.localUid id) reason)

/-- The ban reason if a mask matches a server ban. -/
def matchesKline (s : Server) (hostmask : String) : Option String :=
  (s.serverBans.find? fun ban => maskMatches ban.mask hostmask).map (·.reason)

/-- Take a departing client out of one channel, telling the members not yet told. -/
def leaveOnQuit (id : UInt64) (entry : ClientEntry) (quit : Event) (reason : String)
    (state : Server × List UInt64) (folded : String) : Server × List UInt64 :=
  let (s, notified) := state
  match s.findChannel folded with
  | none => (s.reapChannel folded, notified)
  | some channel =>
    let s := s.modifyChannel folded fun channel => channel.dropLocal id
    let unaware := (channel.dropLocal id).members.keys.filter fun other => other ∉ notified
    let s := s.sendEvent unaware quit
    let s := s.recordChannelEvent folded channel.name entry.hostmask .quit reason
    (s.reapChannel folded, notified ++ unaware)

/-- Take a departing client out of its channels and tell their members. -/
def quitChannels (s : Server) (id : UInt64) (reason : String) : Server :=
  let entry := s.entry id
  let s := s.recordWhowas entry.nick entry.user entry.host entry.realname
  let quit : Event := {
    body := Line.user entry.nick entry.user entry.host |>.command "QUIT" |>.trailing reason |>.body
    time := some (formatServerTime s.nowMillis)
    account := entry.account }
  (entry.channels.foldl (leaveOnQuit id entry quit reason) (s, [id])).1

/-- Full teardown of a departing client. -/
def disconnect (s : Server) (id : UInt64) (reason : String) : Server :=
  let entry := s.entry id
  let named := entry.nick != "" && entry.nick != "*"
  let s := if entry.registered then s.quitChannels id reason else s
  let s := { s with byId := s.byId.filter fun other => other != id }
  let s := if entry.registered && named then s.monitorOffline entry.nick else s
  let s := entry.monitor.foldl (fun s folded => s.monitorUnwatch folded id) s
  if named && s.clients.lookup (s.fold entry.nick) == some id then s.releaseNick (s.fold entry.nick) else s

/-- The end of a connection: peers are told, then the client is torn down. -/
def closeConnection (s : Server) (id : UInt64) (reason : String) : Server :=
  let s := if (s.entry id).registered then s.withdrawLocal id reason else s
  s.disconnect id reason

/-- Complete the registration of a client, whose displayed host becomes `cloak`. -/
def completeRegistration (s : Server) (id : UInt64) (cloak : String) : Server :=
  match s.matchesKline (s.entry id).realHostmask with
  | some reason => s.closeConnection id ("K-Lined: " ++ reason)
  | none =>
    let s := s.modifyEntry id fun entry => { entry with host := cloak, registered := true }
    (s.introduceLocal id).monitorOnline (s.entry id).nick (s.entry id).hostmask

/-! ## Channels -/

def channelTs (s : Server) (channelDisplay : String) : UInt64 :=
  ((s.findChannel (s.fold channelDisplay)).map (·.createdAt)).getD 0

def propagateSjoin (s : Server) (id : UInt64) (channelDisplay : String) (status : MemberPrefix) : Server :=
  s.propagateToLinks
    (.sjoin channelDisplay (s.localUid id) status.op status.voice (s.channelTs channelDisplay))

def sendTopicOnJoin (s : Server) (id : UInt64) (channel : ChannelEntry) : Server :=
  match channel.topic with
  | none => s
  | some topic =>
    let s := s.numeric id rplTopic [channel.name] (some topic.text)
    s.numeric id rplTopicWhoTime [channel.name, topic.setBy, printU64 topic.setAt] none

/-- Add a name to the last chunk if it fits in 400 bytes, else start another. -/
def addToChunks (chunks : List String) (name : String) : List String :=
  match chunks with
  | [] => [name]
  | chunk :: rest =>
    if chunk ≠ "" ∧ 400 < chunk.utf8ByteSize + 1 + name.utf8ByteSize then name :: chunk :: rest
    else (if chunk = "" then name else chunk ++ " " ++ name) :: rest

/-- The `NAMES` reply. -/
def sendNames (s : Server) (id : UInt64) (channel : ChannelEntry) : Server :=
  let caps := (s.entry id).caps
  let shown (status : MemberPrefix) (nick user host : String) : String :=
    status.render (caps.has .multiPrefix) ++
      if caps.has .userhostInNames then hostmask nick user host else nick
  let names :=
    channel.members.entries.map (fun member =>
      shown member.2 (s.entry member.1).nick (s.entry member.1).user (s.entry member.1).host) ++
    channel.remoteMembers.values.map fun member => shown member.status member.nick member.user member.host
  let symbol := if channel.modes.secret then "@" else "="
  let s := (names.foldl addToChunks []).reverse.foldl
    (fun s chunk => s.numeric id rplNamReply [symbol, channel.name] (some chunk)) s
  s.numeric id rplEndOfNames [channel.name] (some "End of /NAMES list")

/-- The creator, or the registered founder, becomes channel operator. -/
def joinStatus (s : Server) (id : UInt64) (folded : String) (created : Bool) : MemberPrefix :=
  let isFounder := (s.entry id).account.any fun account =>
    (s.channelFounder folded).any fun founder => s.fold founder = s.fold account
  ⟨created || isFounder, false⟩

/-- The part of a join after it was let in: the member is stored and announced. -/
def enterChannel (s : Server) (id : UInt64) (folded : String) (channel : ChannelEntry) (created : Bool) :
    Server :=
  let entry := s.entry id
  let status := s.joinStatus id folded created
  let s := s.modifyChannel folded fun channel => channel.addLocal id status
  let s := s.modifyEntry id fun entry => { entry with channels := entry.channels.insert folded }
  let event : Event := {
    body := s.userLine id |>.command "JOIN" |>.param channel.name |>.body
    time := some (formatServerTime s.nowMillis)
    account := entry.account
    suffix := some (.extendedJoin, " " ++ entry.account.getD "*" ++ " :" ++ entry.realname) }
  -- announced with the channel as it was looked up, and the new member
  let channel := channel.addLocal id status
  let s := (s.toChannel channel event (some id)).toClient id event
  let s := s.recordChannelEvent (s.fold channel.name) channel.name entry.hostmask .join ""
  let s := s.sendTopicOnJoin id channel
  let s := if entry.caps.has .noImplicitNames then s else s.sendNames id channel
  s.propagateSjoin id channel.name status

def joinOne (s : Server) (id : UInt64) (name : String) (key : Option String) : Server :=
  if !isValidChannel name then s.numeric id errNoSuchChannel [name] (some "No such channel")
  else
    let folded := s.fold name
    let entry := s.entry id
    if entry.channels.contains folded then s
    else if !entry.oper && s.info.maxChannels ≤ entry.channels.length then
      s.numeric id errTooManyChannels [name] (some "You have joined too many channels")
    else
      let (s, created) := s.beginJoin folded name
      match s.findChannel folded with
      | none => s
      | some channel =>
        let foldedNick := s.fold entry.nick
        match if created then none else channel.joinRejection entry foldedNick key with
        | some (code, text) => (s.numeric id code [channel.name] (some text)).endJoin folded
        | none =>
          -- the invitation is used up
          let s := if created then s
            else s.modifyChannel folded fun channel =>
              { channel with invited := channel.invited.filter fun nick => nick != foldedNick }
          (s.enterChannel id folded channel created).endJoin folded

def partOne (s : Server) (id : UInt64) (name : String) (reason : Option String) : Server :=
  let folded := s.fold name
  match s.findChannel folded with
  | none => s.numeric id errNoSuchChannel [name] (some "No such channel")
  | some channel =>
    if id ∉ channel.members then
      s.numeric id errNotOnChannel [channel.name] (some "You're not on that channel")
    else
      let line := s.userLine id |>.command "PART" |>.param channel.name
      let event := s.event id (reason.elim line line.trailing).body
      -- told to the members as they were, the one who leaves included
      let s := (s.toChannel channel event (some id)).toClient id event
      let s := s.recordChannelEvent folded channel.name (s.entry id).hostmask .part (reason.getD "")
      let s := s.modifyChannel folded fun channel => channel.dropLocal id
      let s := s.modifyEntry id fun entry =>
        { entry with channels := entry.channels.filter fun name => name != folded }
      let s := s.propagateToLinks (.spart channel.name (s.localUid id) (reason.getD "Leaving"))
      s.reapChannel folded

/-- The part of a kick after its checks, of the local client or remote user `target`. -/
def expel (s : Server) (id : UInt64) (folded : String) (channel : ChannelEntry)
    (target : UInt64 ⊕ RemoteUser) (reason : String) : Server :=
  let targetNick := match target with
    | .inl other => (s.entry other).nick
    | .inr user => user.nick
  let line := s.userLine id |>.command "KICK" |>.param channel.name |>.param targetNick |>.trailing reason
  let event := s.event id line.body
  -- told while the one kicked is still a member
  let s := (s.toChannel channel event (some id)).toClient id event
  let s := s.recordChannelEvent folded channel.name (s.entry id).hostmask .kick (targetNick ++ " " ++ reason)
  match target with
  | .inl other =>
    let s := s.modifyChannel folded fun channel => channel.dropLocal other
    let s := s.modifyEntry other fun entry =>
      { entry with channels := entry.channels.filter fun name => name != folded }
    (s.reapChannel folded).propagateToLinks (.skick channel.name (s.localUid id) (s.localUid other) reason)
  | .inr user =>
    let s := s.modifyChannel folded fun channel => channel.dropRemote user.uid
    let s := s.remoteChannelRemoved user.uid folded
    (s.reapChannel folded).propagateToLinks (.skick channel.name (s.localUid id) user.uid reason)

def kickOne (s : Server) (id : UInt64) (chan targetNick : String) (reason : Option String) : Server :=
  let folded := s.fold chan
  match s.findChannel folded with
  | none => s.numeric id errNoSuchChannel [chan] (some "No such channel")
  | some channel =>
    let targetFolded := s.fold targetNick
    let target : Option (UInt64 ⊕ RemoteUser) := match s.findClient targetFolded with
      | some other => some (.inl other)
      | none => (s.findRemoteUser targetFolded).map .inr
    match target with
    | none => s.numeric id errNoSuchNick [targetNick] (some "No such nick/channel")
    | some target =>
      -- the membership of the target is asked before that of the kicker, but answered after it
      let targetIn := match target with
        | .inl other => decide (other ∈ channel.members)
        | .inr user => decide (user.uid ∈ channel.remoteMembers)
      match channel.members.lookup id with
      | none => s.numeric id errNotOnChannel [channel.name] (some "You're not on that channel")
      | some status =>
        if !status.op then
          s.numeric id errChanOPrivsNeeded [channel.name] (some "You're not channel operator")
        else if !targetIn then
          s.numeric id errUserNotInChannel [targetNick, channel.name] (some "They aren't on that channel")
        else
          s.expel id folded channel target (truncateChars (reason.getD (s.entry id).nick) maxKickLen)

def cmdRename (s : Server) (id : UInt64) (old newName reason : String) : Server :=
  if !isValidChannel newName then
    s.fail id "RENAME" "CANNOT_RENAME" [old, newName] "Invalid channel name"
  else
    let oldFolded := s.fold old
    match s.findChannel oldFolded with
    | none => s.numeric id errNoSuchChannel [old] (some "No such channel")
    | some channel =>
      match channel.members.lookup id with
      | none => s.numeric id errNotOnChannel [channel.name] (some "You're not on that channel")
      | some status =>
        if !status.op then
          s.numeric id errChanOPrivsNeeded [channel.name] (some "You're not channel operator")
        else match s.renameChannel oldFolded newName with
          | .ok renamed =>
            let s := renamed.broadcastRename (s.fold newName) channel.name (renamed.entry id).hostmask reason
            s.propagateToLinks (.srename (s.localUid id) channel.name newName reason)
          | .error .nameInUse =>
            s.fail id "RENAME" "CHANNEL_NAME_IN_USE" [old, newName] "Channel name already in use"
          | .error .noSuchChannel => s.numeric id errNoSuchChannel [old] (some "No such channel")

/-! ## Functions that only queue or log -/

@[simp] theorem numeric_toTables (s : Server) (id : UInt64) (code : Nat) (params : List String)
    (text : Option String) : (s.numeric id code params text).toTables = s.toTables := rfl

@[simp] theorem numeric_frames (s : Server) (id : UInt64) (code : Nat) (params : List String)
    (text : Option String) : (s.numeric id code params text).fx.frames = s.fx.frames := rfl

@[simp] theorem fail_toTables (s : Server) (id : UInt64) (command code : String) (context : List String)
    (text : String) : (s.fail id command code context text).toTables = s.toTables := by
  rw [fail]
  split <;> rfl

@[simp] theorem propagate_toTables (s : Server) (id : UInt64) (event : Event) :
    (s.propagate id event).toTables = s.toTables := rfl

@[simp] theorem propagate_frames (s : Server) (id : UInt64) (event : Event) :
    (s.propagate id event).fx.frames = s.fx.frames := rfl

theorem broadcastNickChange_quiet (s : Server) (id : UInt64) (old new : String) :
    (s.broadcastNickChange id old new).toTables = s.toTables ∧
      (s.broadcastNickChange id old new).fx.frames = s.fx.frames := by
  refine foldl_invariant (I := fun later : Server => later.toTables = s.toTables ∧
    later.fx.frames = s.fx.frames) _ _ ?_ _ ⟨rfl, rfl⟩
  intro later folded _ quiet
  split <;> exact quiet

@[simp] theorem broadcastNickChange_toTables (s : Server) (id : UInt64) (old new : String) :
    (s.broadcastNickChange id old new).toTables = s.toTables :=
  (broadcastNickChange_quiet s id old new).1

@[simp] theorem broadcastNickChange_frames (s : Server) (id : UInt64) (old new : String) :
    (s.broadcastNickChange id old new).fx.frames = s.fx.frames :=
  (broadcastNickChange_quiet s id old new).2

@[simp] theorem propagateNickChange_toTables (s : Server) (id : UInt64) (newNick : String) :
    (s.propagateNickChange id newNick).toTables = s.toTables := rfl

@[simp] theorem introduceLocal_toTables (s : Server) (id : UInt64) :
    (s.introduceLocal id).toTables = s.toTables := by
  simp only [introduceLocal]
  split <;> rfl

@[simp] theorem withdrawLocal_toTables (s : Server) (id : UInt64) (reason : String) :
    (s.withdrawLocal id reason).toTables = s.toTables := rfl

@[simp] theorem propagateSjoin_toTables (s : Server) (id : UInt64) (channelDisplay : String)
    (status : MemberPrefix) : (s.propagateSjoin id channelDisplay status).toTables = s.toTables := rfl

@[simp] theorem sendTopicOnJoin_toTables (s : Server) (id : UInt64) (channel : ChannelEntry) :
    (s.sendTopicOnJoin id channel).toTables = s.toTables := by
  rw [sendTopicOnJoin]
  split <;> rfl

@[simp] theorem sendNames_toTables (s : Server) (id : UInt64) (channel : ChannelEntry) :
    (s.sendNames id channel).toTables = s.toTables := by
  refine foldl_invariant (I := fun later : Server => later.toTables = s.toTables) _ _ ?_ s rfl
  intro later chunk _ same
  exact same

/-- Entering a channel stores the member in the channel and the channel in the client's set. -/
theorem enterChannel_toTables (s : Server) (id : UInt64) (folded : String) (channel : ChannelEntry)
    (created : Bool) :
    (s.enterChannel id folded channel created).toTables =
      { s.toTables with
        channels := s.channels.modify folded fun channel =>
          channel.addLocal id (s.joinStatus id folded created)
        entries := s.entries.insert id { s.entry id with
          channels := (s.entry id).channels.insert folded } } := by
  simp only [enterChannel, propagateSjoin_toTables]
  split
  · simp only [sendTopicOnJoin_toTables]
    rfl
  · simp only [sendNames_toTables, sendTopicOnJoin_toTables]
    rfl

end Server

end Ferrixd
