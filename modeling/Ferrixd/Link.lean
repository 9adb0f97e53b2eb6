import Ferrixd.State.Identity
import Ferrixd.State.Messages
import Ferrixd.State.Modes

/-! # The read loop of a link

What a server does with each frame of a peer: check that the peer may speak for its origin,
apply it, and pass it on to every other peer. -/

namespace Ferrixd

/-- Whether the read loop goes on. -/
inductive Flow where
  | more
  | stop
  deriving DecidableEq

/-- Whether a source may change state over a link: a user behind the peer, `*` for the peer
itself, or the name of a server behind it. -/
def Tables.linkSourceAuthorized (t : Tables) (peerSid source : String) : Bool :=
  source = "*" || t.remoteUidAuthorized peerSid source || t.serverSourceAuthorized peerSid source

namespace Server

/-- The arms that apply a frame and pass it on if its origin is authorised, and drop it if not. -/
def applyIf (s : Server) (authorized : Bool) (peerSid : String) (message : LinkMessage)
    (change : Server → Server) : Server × Flow :=
  if authorized then ((change s).forwardToLinks peerSid message, .more) else (s, .more)

/-- The user a `UID` frame introduces. -/
def introduced (sid uid nick user host account realname : String) : RemoteUser where
  serverSid := sid
  uid := uid
  nick := nick
  user := user
  host := host
  account := if account = "*" then none else some account
  realname := realname
  away := none
  oper := false
  invisible := false
  bot := false

/-- Answer the loser of a collision with a kill, or pass the frame on. -/
def answerOrForward (peerSid : String) (message : LinkMessage) :
    Server × Option LinkMessage → Server × Flow
  | (s, some kill) => (s.sendToLink peerSid kill, .more)
  | (s, none) => (s.forwardToLinks peerSid message, .more)

/-- One frame of the peer `peerSid`. -/
def handle (s : Server) (peerSid : String) (message : LinkMessage) : Server × Flow :=
  match message with
  | .uid sid uid _ nick user host account realname =>
    -- a server introduces only users of its own SID
    if !startsWith uid sid then (s, .more)
    else match s.routeAuthorize peerSid sid with
      | (_, false) => (s, .more)
      | (s, true) =>
        answerOrForward peerSid message
          (s.acceptRemoteUser (introduced sid uid nick user host account realname))
  | .kill uid reason =>
    if s.ownsLocalUid uid then (s.killByUid uid reason, .more)
    else if s.remoteUidAuthorized peerSid uid then
      ((s.killByUid uid reason).forwardToLinks peerSid message, .more)
    else match s.remoteUserByUid uid with
      -- a kill on its way to the victim's server
      | some victim => (s.sendTowards victim.serverSid message, .more)
      | none => (s, .more)
  | .nick uid nick =>
    if s.remoteUidAuthorized peerSid uid then
      answerOrForward peerSid message (s.remoteNickChange uid nick)
    else (s, .more)
  | .quit uid reason =>
    s.applyIf (s.remoteUidAuthorized peerSid uid) peerSid message fun s => s.remoteQuit uid reason
  | .userMessage source target notice msgid timeMs tags text =>
    if s.remoteSourceAuthorized peerSid source then
      (s.deliverRemoteMessage source target notice msgid timeMs tags text, .more)
    else (s, .more)
  | .tagMessage source target tags =>
    if s.remoteSourceAuthorized peerSid source then (s.deliverTagmsg peerSid source target tags, .more)
    else (s, .more)
  | .sjoin channel uid op voice ts =>
    s.applyIf (s.remoteUidAuthorized peerSid uid) peerSid message fun s =>
      s.remoteJoin channel uid ⟨op, voice⟩ ts
  | .spart channel uid reason =>
    s.applyIf (s.remoteUidAuthorized peerSid uid) peerSid message fun s => s.remotePart channel uid reason
  | .chanMessage source channel notice msgid timeMs tags text =>
    if s.remoteSourceAuthorized peerSid source then
      (s.deliverChannelMessage peerSid source channel notice msgid timeMs tags text, .more)
    else (s, .more)
  | .stopic channel source setBy setAt text =>
    s.applyIf (s.linkSourceAuthorized peerSid source) peerSid message fun s =>
      s.remoteTopic channel source setBy setAt text
  | .smode channel source ts flags args =>
    s.applyIf (s.linkSourceAuthorized peerSid source) peerSid message fun s =>
      s.remoteMode channel source ts flags args
  | .skick channel source target reason =>
    s.applyIf (s.linkSourceAuthorized peerSid source) peerSid message fun s =>
      s.remoteKick channel source target reason
  | .saway uid reason =>
    s.applyIf (s.remoteUidAuthorized peerSid uid) peerSid message fun s => s.remoteAway uid reason
  | .saccount uid account =>
    s.applyIf (s.remoteUidAuthorized peerSid uid) peerSid message fun s =>
      s.remoteAccount uid (if account = "*" then none else some account)
  | .ssetname uid realname =>
    s.applyIf (s.remoteUidAuthorized peerSid uid) peerSid message fun s => s.remoteSetname uid realname
  | .schghost uid host =>
    s.applyIf (s.remoteUidAuthorized peerSid uid) peerSid message fun s => s.remoteChghost uid host
  | .swallops source text => s.applyIf true peerSid message fun s => s.remoteWallops source text
  | .sinvite source target channel =>
    -- one of the burst is kept here and passed on; another one goes to the server of its target
    if source = "*" then
      ((s.remoteInvitePending target channel).forwardToLinks peerSid message, .more)
    else if !s.remoteUidAuthorized peerSid source then (s, .more)
    else if s.ownsLocalUid target then (s.remoteInvite source target channel, .more)
    else match s.remoteUserByUid target with
      | some user => (s.sendTowards user.serverSid message, .more)
      | none => (s, .more)
  | .sumode uid flags =>
    s.applyIf (s.remoteUidAuthorized peerSid uid) peerSid message fun s => s.remoteUmode uid flags
  | .sknock source channel mask =>
    s.applyIf (s.remoteUidAuthorized peerSid source) peerSid message fun s => s.remoteKnock channel mask
  | .sredact source target msgid reason =>
    s.applyIf (s.linkSourceAuthorized peerSid source) peerSid message fun s =>
      s.remoteRedact source target msgid reason
  | .srename source old new reason =>
    s.applyIf (s.linkSourceAuthorized peerSid source) peerSid message fun s =>
      s.remoteRename source old new reason
  | .sban add mask setBy reason => s.applyIf true peerSid message fun s => s.remoteGline add mask setBy reason
  | .sserver name sid uplink description =>
    match s.acceptRemoteServer peerSid ⟨sid, name, uplink, description⟩ with
    | .ok s => (s.forwardToLinks peerSid message, .more)
    | .error reason => (s.sendToLink peerSid (.error reason), .stop)
  | .ping token => (s.sendToLink peerSid (.pong token), .more)
  | .squit sid _ =>
    -- the peer itself goes, or a server that is reached through it
    if sid = peerSid then (s, .stop)
    else if s.routeOwner sid = some peerSid then
      ((s.splitRemoteServer sid splitReason).forwardToLinks peerSid message, .more)
    else (s, .more)
  | .error _ => (s, .stop)
  -- handshake frames and answers to pings are not expected here
  | .pass _ | .server _ _ _ | .pong _ => (s, .more)

/-- A frame arrives; when the loop stops the link is dropped. -/
def receive (s : Server) (peerSid : String) (message : LinkMessage) : Server :=
  match s.handle peerSid message with
  | (s, .more) => s
  | (s, .stop) => s.dropLink peerSid

end Server

end Ferrixd
