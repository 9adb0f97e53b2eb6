import Ferrixd.Data.Notice
import Ferrixd.Data.Table
import Ferrixd.Deliver
import Ferrixd.History
import Ferrixd.Mask
import Ferrixd.S2S

/-! # The server's state

The registries of one server: its clients, its channels, what it knows of the rest of the
network, and what it has queued for its clients and its peers. -/

namespace Ferrixd

/-! ## Identity and remote users -/

structure ServerInfo where
  name : String
  sid : String
  network : String
  casemapping : CaseMapping
  maxChannels : Nat

/-- A user on a linked server. -/
structure RemoteUser where
  serverSid : String
  uid : String
  nick : String
  user : String
  host : String
  account : Option String
  realname : String
  away : Option String
  oper : Bool
  invisible : Bool
  bot : Bool
  deriving DecidableEq

def hostmask (nick user host : String) : String :=
  nick ++ "!" ++ user ++ "@" ++ host

/-- A user of `beta.example`, whose SID is `2BB`. -/
def betaUser (uid nick : String) : RemoteUser :=
  ⟨"2BB", uid, nick, "ident", "host.example", none, "Real Name", none, false, false, false⟩

def RemoteUser.hostmask (user : RemoteUser) : String :=
  Ferrixd.hostmask user.nick user.user user.host

/-- A linked peer. -/
structure LinkHandle where
  sid : String
  name : String
  description : String
  deriving DecidableEq

/-- A server reachable through a peer. -/
structure RemoteServer where
  sid : String
  name : String
  uplink : String
  description : String
  deriving DecidableEq

structure ServerBan where
  mask : String
  reason : String
  setBy : String
  setAt : UInt64
  deriving DecidableEq

/-- The `+o`/`+i`/`+B` umode string of a user, if any is set. -/
def umodeFlags (oper invisible bot : Bool) : Option String :=
  let flags := (if oper then "o" else "") ++ (if invisible then "i" else "") ++ (if bot then "B" else "")
  if flags = "" then none else some ("+" ++ flags)

structure WhowasEntry where
  nick : String
  user : String
  host : String
  realname : String
  departedAt : UInt64
  deriving DecidableEq

def whowasCapacity : Nat := 1024

/-! ## Clients -/

/-- A connected client.  The server's tables share clients by their id. -/
structure ClientEntry where
  nick : String := "*"
  user : String := ""
  host : String := ""
  realIp : String := ""
  realname : String := ""
  registered : Bool := false
  channels : List String := []
  away : Option String := none
  account : Option String := none
  oper : Bool := false
  invisible : Bool := false
  wallops : Bool := false
  bot : Bool := false
  monitor : List String := []
  silence : List String := []
  caps : CapSet := []
  /-- Why the connection is to be torn down, once that is requested. -/
  killReason : Option String := none
  deriving DecidableEq

namespace ClientEntry

def hostmask (entry : ClientEntry) : String :=
  Ferrixd.hostmask entry.nick entry.user entry.host

def realHostmask (entry : ClientEntry) : String :=
  Ferrixd.hostmask entry.nick entry.user entry.realIp

/-- Ask for the connection to be torn down; the first reason is kept. -/
def requestKill (entry : ClientEntry) (reason : String) : ClientEntry :=
  { entry with killReason := entry.killReason.getD reason }

def silences (entry : ClientEntry) (sourceMask : String) : Bool :=
  entry.silence.any fun mask => maskMatches mask sourceMask

end ClientEntry

/-! ## Channels -/

structure Ban where
  mask : String
  setBy : String
  setAt : UInt64
  deriving DecidableEq

/-- The op and voice status of a member. -/
structure MemberPrefix where
  op : Bool := false
  voice : Bool := false
  deriving DecidableEq

namespace MemberPrefix

def symbol (status : MemberPrefix) : String :=
  if status.op then "@" else if status.voice then "+" else ""

def render (status : MemberPrefix) (multi : Bool) : String :=
  if multi then (if status.op then "@" else "") ++ (if status.voice then "+" else "")
  else status.symbol

end MemberPrefix

/-- A channel member on a linked server, with a copy of the user's identity. -/
structure RemoteMember where
  nick : String
  user : String
  host : String
  serverSid : String
  status : MemberPrefix
  deriving DecidableEq

structure Topic where
  text : String
  setBy : String
  setAt : UInt64
  deriving DecidableEq

/-- Channel modes, `+nt` by default. -/
structure ChannelModes where
  noExternal : Bool := true
  topicLock : Bool := true
  moderated : Bool := false
  inviteOnly : Bool := false
  secret : Bool := false
  key : Option String := none
  limit : Option UInt64 := none
  deriving DecidableEq

/-- One simple boolean channel mode. -/
structure BoolMode where
  letter : Char
  get : ChannelModes → Bool
  set : ChannelModes → Bool → ChannelModes
  persistBit : UInt8

def boolModes : List BoolMode := [
  ⟨'i', fun m => m.inviteOnly, fun m v => { m with inviteOnly := v }, 8⟩,
  ⟨'m', fun m => m.moderated, fun m v => { m with moderated := v }, 4⟩,
  ⟨'n', fun m => m.noExternal, fun m v => { m with noExternal := v }, 1⟩,
  ⟨'s', fun m => m.secret, fun m v => { m with secret := v }, 16⟩,
  ⟨'t', fun m => m.topicLock, fun m v => { m with topicLock := v }, 2⟩]

/-- Render the mode string and its arguments. -/
def ChannelModes.render (modes : ChannelModes) (revealKey : Bool) : String × List String :=
  let letters := (boolModes.filter fun mode => mode.get modes).map (·.letter)
  let keyPart := match modes.key with
    | some key => ("k", [if revealKey then key else "*"])
    | none => ("", [])
  let limitPart := match modes.limit with
    | some limit => ("l", [printU64 limit])
    | none => ("", [])
  ("+" ++ String.ofList letters ++ keyPart.1 ++ limitPart.1, keyPart.2 ++ limitPart.2)

structure ChannelData where
  name : String
  topic : Option Topic := none
  members : Table UInt64 MemberPrefix := ∅
  remoteMembers : Table String RemoteMember := ∅
  modes : ChannelModes := {}
  bans : List Ban := []
  exceptions : List Ban := []
  invex : List Ban := []
  invited : List String := []
  createdAt : UInt64

/-- A channel and the number of joins in flight on it. -/
structure ChannelEntry extends ChannelData where
  joining : Nat := 0

/-- A persisted channel registration. -/
structure RegisteredChannel where
  folded : String
  name : String
  founder : String
  topicText : Option String
  topicSetby : String
  topicSetat : UInt64
  modeFlags : UInt8
  key : Option String
  limit : Option UInt64
  deriving DecidableEq

/-! ## The server -/

/-- The link tree as this server knows it. -/
structure Topology where
  links : Table String LinkHandle
  remoteRoutes : Table String String
  remoteServers : Table String RemoteServer

/-- The users of other servers, by folded nick, and the index by UID. -/
structure Registry where
  remoteUsers : Table String RemoteUser
  remoteByUid : Table String String

/-- The channels, by folded name, the channels of each remote user, and registrations. -/
structure Rooms where
  channels : Table String ChannelEntry
  remoteChannels : Table String (List String)
  registeredChannels : Table String RegisteredChannel
  /-- The attached store's rows, if there is a store. -/
  chanreg : Option (Table String RegisteredChannel)

/-- The local clients: their data by id, the nick registry and the index of ids. -/
structure Locals where
  entries : Table UInt64 ClientEntry
  clients : Table String UInt64
  byId : List UInt64
  nextId : UInt64
  monitors : Table String (List UInt64)

/-- A presence numeric: it tells a watcher whether somebody holds a folded nick. -/
abbrev PresenceNotice := Notice UInt64 String Bool

/-- What a server has queued or logged. -/
structure Effects where
  history : History
  whowas : List WhowasEntry
  /-- Bytes queued for clients, oldest first. -/
  mail : List (UInt64 × Bytes)
  /-- Frames queued for peers, oldest first. -/
  frames : List (String × LinkMessage)
  /-- What the presence numerics among the mail say, oldest first. -/
  notices : List PresenceNotice

/-- Everything the server's functions read. -/
structure Tables extends Topology, Registry, Rooms, Locals where
  info : ServerInfo
  serverBans : List ServerBan
  readMarkers : Table String UInt64
  /-- What the clock shows, in epoch milliseconds. -/
  nowMillis : UInt64

/-- The whole mutable server. -/
structure Server extends Tables where
  fx : Effects

namespace Tables

def nowUnix (s : Tables) : UInt64 :=
  s.nowMillis / 1000

def fold (s : Tables) (name : String) : String :=
  s.info.casemapping.fold name

/-- The data of a client. -/
def entry (s : Tables) (id : UInt64) : ClientEntry :=
  (s.entries.lookup id).getD {}

/-- The UID of a local client. -/
def localUid (s : Tables) (id : UInt64) : String :=
  s.info.sid ++ printU64 id

/-- The client id in a UID of our own namespace. -/
def localIdOfUid (s : Tables) (uid : String) : Option UInt64 :=
  (stripLead? uid s.info.sid).bind parseU64

/-- The client with this id, if it is indexed. -/
def indexed (s : Tables) (id : UInt64) : Option UInt64 :=
  if id ∈ s.byId then some id else none

def findClient (s : Tables) (foldedNick : String) : Option UInt64 :=
  s.clients.lookup foldedNick

def findChannel (s : Tables) (foldedName : String) : Option ChannelEntry :=
  s.channels.lookup foldedName

def findRemoteUser (s : Tables) (foldedNick : String) : Option RemoteUser :=
  s.remoteUsers.lookup foldedNick

def remoteUserByUid (s : Tables) (uid : String) : Option RemoteUser :=
  (s.remoteByUid.lookup uid).bind s.remoteUsers.lookup

/-- The UID of whoever holds a nick, here or on a linked server. -/
def uidOfNick (t : Tables) (nick : String) : Option String :=
  match t.findClient (t.fold nick) with
  | some id => some (t.localUid id)
  | none => (t.findRemoteUser (t.fold nick)).map (·.uid)

/-- The direct peer through which a server is reachable. -/
def routeFor (s : Tables) (sid : String) : Option String :=
  if sid ∈ s.links then some sid
  else (s.remoteRoutes.lookup sid).filter fun owner => owner ∈ s.links

end Tables

namespace Server

/-- An empty server. -/
def new (info : ServerInfo) (historyLen historyMaxTargets : Nat) : Server where
  links := ∅
  remoteRoutes := ∅
  remoteServers := ∅
  remoteUsers := ∅
  remoteByUid := ∅
  channels := ∅
  remoteChannels := ∅
  registeredChannels := ∅
  chanreg := none
  entries := ∅
  clients := ∅
  byId := []
  nextId := 1
  monitors := ∅
  info := info
  serverBans := []
  readMarkers := ∅
  nowMillis := 0
  fx := ⟨(History.new historyLen historyMaxTargets).setMsgidLead info.sid, [], [], [], []⟩

def modifyEntry (s : Server) (id : UInt64) (change : ClientEntry → ClientEntry) : Server :=
  { s with entries := s.entries.insert id (change (s.entry id)) }

def modifyChannel (s : Server) (folded : String) (change : ChannelEntry → ChannelEntry) : Server :=
  { s with channels := s.channels.modify folded change }

/-! ## Effects -/

/-- Change only what is queued or logged. -/
def emit (s : Server) (change : Effects → Effects) : Server :=
  { s with fx := change s.fx }

/-- Queue bytes for a client. -/
def send (s : Server) (id : UInt64) (bytes : Bytes) : Server :=
  s.emit fun fx => { fx with mail := fx.mail ++ [(id, bytes)] }

/-- Queue the same bytes for several clients. -/
def sendAll (s : Server) (ids : List UInt64) (bytes : Bytes) : Server :=
  s.emit fun fx => { fx with mail := fx.mail ++ ids.map fun id => (id, bytes) }

/-- Queue an event for several clients, rendered for each. -/
def sendEvent (s : Server) (ids : List UInt64) (event : Event) : Server :=
  s.emit fun fx => { fx with mail := fx.mail ++ ids.map fun id => (id, event.renderFor (s.entry id).caps) }

/-- Queue a frame for a peer, if it is linked. -/
def sendToLink (s : Server) (sid : String) (message : LinkMessage) : Server :=
  if sid ∈ s.links then s.emit fun fx => { fx with frames := fx.frames ++ [(sid, message)] } else s

/-- Queue a frame towards a server, along its route. -/
def sendTowards (s : Server) (sid : String) (message : LinkMessage) : Server :=
  match s.routeFor sid with
  | some peer => s.sendToLink peer message
  | none => s

/-- Queue a frame for every peer but the one it came from. -/
def forwardToLinks (s : Server) (originSid : String) (message : LinkMessage) : Server :=
  s.emit fun fx => { fx with
    frames := fx.frames ++ (s.links.keys.filter fun sid => sid != originSid).map fun sid => (sid, message) }

/-- Queue a frame for every peer. -/
def propagateToLinks (s : Server) (message : LinkMessage) : Server :=
  s.emit fun fx => { fx with frames := fx.frames ++ s.links.keys.map fun sid => (sid, message) }

def recordWhowas (s : Server) (nick user host realname : String) : Server :=
  if nick = "" ∨ nick = "*" then s
  else s.emit fun fx =>
    let ring := if whowasCapacity ≤ fx.whowas.length then fx.whowas.drop 1 else fx.whowas
    { fx with whowas := ring ++ [⟨nick, user, host, realname, s.nowUnix⟩] }

/-- Record a membership or state event for replay. -/
def recordChannelEvent (s : Server) (folded display sourceMask : String) (kind : MessageKind)
    (text : String) : Server :=
  s.emit fun fx =>
    let (msgid, history) := fx.history.nextMsgid
    let message := ⟨msgid, s.nowMillis, sourceMask, none, kind, display, text⟩
    { fx with history := history.record folded message }

/-- The server `alpha.example` as it starts. -/
def alpha : Server :=
  .new ⟨"alpha.example", "1AA", "ExampleNet", .rfc1459, 64⟩ 50 128

end Server

end Ferrixd
