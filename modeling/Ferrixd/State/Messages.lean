import Ferrixd.State.Topology
import Ferrixd.State.Channels

/-! # Messages from other servers

Relayed messages are delivered to local recipients and passed on along the tree.  They
change what is queued and logged, and nothing else. -/

namespace Ferrixd

/-- The status a message to a channel is limited to, and the channel's own name. -/
def splitStatus (channelName : String) : Option Bool × String :=
  match channelName.toList with
  | '@' :: rest => (some true, String.ofList rest)
  | '+' :: rest => (some false, String.ofList rest)
  | _ => (none, channelName)

/-- A name without its leading status signs. -/
def trimStatus (channelName : String) : String :=
  String.ofList (channelName.toList.dropWhile fun c => c = '@' ∨ c = '+')

namespace Tables

/-- The account and bot flag of a relayed message's source. -/
def remoteSourceMeta (t : Tables) (sourceNick : String) : Option String × Bool :=
  match t.remoteUsers.lookup (t.fold sourceNick) with
  | some user => (user.account, user.bot)
  | none => (none, false)

/-- The peers through which members of a channel are reached. -/
def memberPeers (t : Tables) (channel : ChannelEntry) : List String :=
  (channel.remoteMembers.values.filterMap fun member => t.routeFor member.serverSid).eraseDups

end Tables

def messageVerb (notice : Bool) : String :=
  if notice then "NOTICE" else "PRIVMSG"

def messageKind (notice : Bool) : MessageKind :=
  if notice then .notice else .privMsg

namespace Server

/-- Queue a frame for each peer with members of a channel, except the one it came from. -/
def relayToMembers (s : Server) (channelName : String) (originSid : Option String)
    (message : LinkMessage) : Server :=
  match s.findChannel (s.fold channelName) with
  | none => s
  | some channel =>
    ((s.memberPeers channel).filter fun peer => some peer ≠ originSid).foldl
      (fun s peer => s.sendToLink peer message) s

/-- The id a message keeps, or the next one of our own. -/
def claimMsgid (s : Server) (msgid : Option String) : Server × String :=
  match msgid with
  | some msgid => (s, msgid)
  | none =>
    let (msgid, history) := s.fx.history.nextMsgid
    (s.emit fun fx => { fx with history }, msgid)

/-- A direct message, delivered here or passed on towards the target's server. -/
def deliverRemoteMessage (s : Server) (source target : String) (notice : Bool) (msgid : Option String)
    (timeMs : Option UInt64) (tags : Option String) (text : String) : Server :=
  let foldedTarget := s.fold target
  let sourceNick := beforeChar source '!'
  match s.findClient foldedTarget with
  | some client =>
    let (account, bot) := s.remoteSourceMeta sourceNick
    let (s, msgid) := s.claimMsgid msgid
    let now := timeMs.getD s.nowMillis
    let nick := (s.entry client).nick
    let stored := ⟨msgid, now, source, account, messageKind notice, nick, text⟩
    let s := s.emit fun fx =>
      { fx with history := fx.history.record (pairKey (s.fold sourceNick) foldedTarget) stored }
    let event : Event := {
      body := ":" ++ source ++ " " ++ messageVerb notice ++ " " ++ nick ++ " :" ++ text
      time := some (formatServerTime now)
      account
      msgid := some msgid
      bot
      clientTags := tags }
    -- it is in the history even if the client silences the source
    if (s.entry client).silences source then s else s.toClient client event
  | none =>
    match s.findRemoteUser foldedTarget with
    | some remote => s.sendTowards remote.serverSid (.userMessage source remote.nick notice msgid timeMs tags text)
    | none => s

/-- A tags-only message. -/
def deliverTagmsg (s : Server) (originSid source target tags : String) : Server :=
  let (account, bot) := s.remoteSourceMeta (beforeChar source '!')
  let event (display : String) : Event := {
    body := ":" ++ source ++ " TAGMSG " ++ display
    clientTags := some tags
    time := some (formatServerTime s.nowMillis)
    account
    bot }
  if isValidChannel target then
    match s.findChannel (s.fold target) with
    | none => s
    | some channel =>
      let s := s.toChannelCapped channel (event channel.name) .messageTags none
      s.relayToMembers channel.name (some originSid) (.tagMessage source channel.name tags)
  else match s.findClient (s.fold target) with
    | some client =>
      if (s.entry client).caps.has .messageTags then s.toClient client (event (s.entry client).nick) else s
    | none =>
      match s.findRemoteUser (s.fold target) with
      | some remote => s.sendTowards remote.serverSid (.tagMessage source remote.nick tags)
      | none => s

/-- A channel message, possibly limited to the holders of a status. -/
def deliverChannelMessage (s : Server) (originSid source channelName : String) (notice : Bool)
    (msgid : Option String) (timeMs : Option UInt64) (tags : Option String) (text : String) : Server :=
  let (status, baseName) := splitStatus channelName
  let folded := s.fold baseName
  match s.findChannel folded with
  | none => s
  | some channel =>
    let (account, bot) := s.remoteSourceMeta (beforeChar source '!')
    let (s, msgid) := s.claimMsgid msgid
    let now := timeMs.getD s.nowMillis
    let stored := ⟨msgid, now, source, account, messageKind notice, channel.name, text⟩
    -- a limited message would replay to members without the status
    let s := if status.isNone then s.emit fun fx => { fx with history := fx.history.record folded stored }
      else s
    let wireTarget := match status with
      | some true => "@" ++ channel.name
      | some false => "+" ++ channel.name
      | none => channel.name
    let event : Event := {
      body := ":" ++ source ++ " " ++ messageVerb notice ++ " " ++ wireTarget ++ " :" ++ text
      time := some (formatServerTime now)
      account
      msgid := some msgid
      bot
      clientTags := tags }
    let s := match status with
      | some opOnly => s.toChannelStatus channel event opOnly none
      | none => s.toChannel channel event none
    s.relayToMembers (trimStatus wireTarget) (some originSid)
      (.chanMessage source wireTarget notice (some msgid) (some now) tags text)

/-! ## They leave the tables alone -/

@[simp] theorem relayToMembers_toTables (s : Server) (channelName : String) (originSid : Option String)
    (message : LinkMessage) : (s.relayToMembers channelName originSid message).toTables = s.toTables := by
  rw [relayToMembers]
  split
  · rfl
  · refine foldl_invariant (I := fun later : Server => later.toTables = s.toTables) _ _ ?_ s rfl
    intro later peer _ same
    rw [sendToLink_toTables, same]

@[simp] theorem claimMsgid_toTables (s : Server) (msgid : Option String) :
    (s.claimMsgid msgid).1.toTables = s.toTables := by
  cases msgid <;> rfl

@[simp] theorem deliverRemoteMessage_toTables (s : Server) (source target : String) (notice : Bool)
    (msgid : Option String) (timeMs : Option UInt64) (tags : Option String) (text : String) :
    (s.deliverRemoteMessage source target notice msgid timeMs tags text).toTables = s.toTables := by
  simp only [deliverRemoteMessage]
  split
  · split <;> simp
  · split
    · simp
    · rfl

@[simp] theorem deliverTagmsg_toTables (s : Server) (originSid source target tags : String) :
    (s.deliverTagmsg originSid source target tags).toTables = s.toTables := by
  simp only [deliverTagmsg]
  split
  · split
    · rfl
    · simp
  · split
    · split <;> rfl
    · split
      · simp
      · rfl

@[simp] theorem deliverChannelMessage_toTables (s : Server) (originSid source channelName : String)
    (notice : Bool) (msgid : Option String) (timeMs : Option UInt64) (tags : Option String) (text : String) :
    (s.deliverChannelMessage originSid source channelName notice msgid timeMs tags text).toTables =
      s.toTables := by
  simp only [deliverChannelMessage]
  split
  · rfl
  · simp only [relayToMembers_toTables]
    split <;> simp only [toChannelStatus_toTables, toChannel_toTables] <;> split <;> simp

end Server

end Ferrixd
