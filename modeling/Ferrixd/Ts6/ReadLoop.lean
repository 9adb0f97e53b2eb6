import Ferrixd.Invariant.Presence
import Ferrixd.Ts6.Grammar

/-! # The read loop of a TS6 link

A second loop applies the lines of a TS6 peer.  Whatever it does with a line, the loop of a native link does with the
frames that say the same. -/

namespace Ferrixd

namespace Tables

/-- The nick of a user, here or on another server. -/
def nickOfUid (t : Tables) (uid : String) : Option String :=
  match t.localIdOfUid uid with
  | some id => (t.indexed id).map fun id => (t.entry id).nick
  | none => (t.remoteUserByUid uid).map (·.nick)

/-- Whether a peer may act for the source of a mode change or a kick, and in whose name; a server acts as `*`. -/
def ts6Actor (t : Tables) (peerSid source : String) : Bool × String :=
  if validSid source then (source = peerSid || t.routeOwner source = some peerSid, "*")
  else (t.remoteUidAuthorized peerSid source, source)

end Tables

def isChannelTarget (target : String) : Bool :=
  startsWith target "#" || startsWith target "&"

/-- The names in a list of channels. -/
def partedChannels (channels : String) : List String :=
  (channels.splitOn ",").filter fun channel => channel ≠ ""

namespace Server

/-- One line of the TS6 peer `peerSid`, with the aliases of its link. -/
def handleTs6 (s : Server) (mapper : UidMapper) (peerSid : String) (event : Ts6In) : Server × Flow :=
  match event with
  | .sid name sid uplink description =>
    let uplink := uplink.getD peerSid
    match s.acceptRemoteServer peerSid ⟨sid, name, uplink, description⟩ with
    | .ok s => (s.forwardToLinks peerSid (.sserver name sid uplink description), .more)
    | .error reason => (s.sendToLink peerSid (.error reason), .stop)
  | .euid sid uid nick user host account realname =>
    let sid := sid.getD peerSid
    if !startsWith uid sid then (s, .more)
    else match s.routeAuthorize peerSid sid with
      | (_, false) => (s, .more)
      | (s, true) =>
        answerOrForward peerSid (.uid sid uid 0 nick user host (account.getD "*") realname)
          (s.acceptRemoteUser ⟨sid, uid, nick, user, host, account, realname, none, false, false, false⟩)
  | .nick uid nick =>
    if s.remoteUidAuthorized peerSid uid then
      answerOrForward peerSid (.nick uid nick) (s.remoteNickChange uid nick)
    else (s, .more)
  | .quit uid reason =>
    s.applyIf (s.remoteUidAuthorized peerSid uid) peerSid (.quit uid reason) fun s => s.remoteQuit uid reason
  | .sjoin channel ts members flags args =>
    let burst (s : Server) (member : String × MemberPrefix) : Server :=
      (s.applyIf (s.remoteUidAuthorized peerSid member.1) peerSid
        (.sjoin channel member.1 member.2.op member.2.voice ts) fun s => s.remoteJoin channel member.1 member.2 ts).1
    let s := members.foldl burst s
    if 1 < (utf8 flags).length then
      let args := modeArgsToFerrix flags args mapper
      s.applyIf true peerSid (.smode channel "*" ts flags args) fun s => s.remoteMode channel "*" ts flags args
    else (s, .more)
  | .join uid channel ts =>
    s.applyIf (s.remoteUidAuthorized peerSid uid) peerSid (.sjoin channel uid false false ts) fun s =>
      s.remoteJoin channel uid ⟨false, false⟩ ts
  | .part uid channels reason =>
    if s.remoteUidAuthorized peerSid uid then
      ((partedChannels channels).foldl (fun s channel =>
        (s.remotePart channel uid reason).forwardToLinks peerSid (.spart channel uid reason)) s, .more)
    else (s, .more)
  | .msg source target notice text =>
    if s.remoteUidAuthorized peerSid source then
      let mask := s.remoteSourceMask source
      -- TS6 carries neither a message id nor a time
      if isChannelTarget target then
        (s.deliverChannelMessage peerSid mask target notice none none none text, .more)
      else
        let targetNick := (s.nickOfUid (mapper.toFerrix target)).getD target
        (s.deliverRemoteMessage mask targetNick notice none none none text, .more)
    else (s, .more)
  | .tmode source channel ts flags args =>
    let (authorized, stateSource) := s.ts6Actor peerSid source
    let args := modeArgsToFerrix flags args mapper
    s.applyIf authorized peerSid (.smode channel stateSource ts flags args) fun s =>
      s.remoteMode channel stateSource ts flags args
  | .kick source channel target reason =>
    let (authorized, stateSource) := s.ts6Actor peerSid source
    let target := mapper.toFerrix target
    s.applyIf authorized peerSid (.skick channel stateSource target reason) fun s =>
      s.remoteKick channel stateSource target reason
  | .topic source channel text =>
    let setBy := (s.nickOfUid source).getD source
    s.applyIf (s.remoteUidAuthorized peerSid source) peerSid (.stopic channel source setBy s.nowUnix text) fun later =>
      later.remoteTopic channel source setBy s.nowUnix text
  | .tb channel setAt setBy text =>
    s.applyIf true peerSid (.stopic channel "*" setBy setAt text) fun s => s.remoteTopic channel "*" setBy setAt text
  | .away uid reason =>
    s.applyIf (s.remoteUidAuthorized peerSid uid) peerSid (.saway uid reason) fun s => s.remoteAway uid reason
  | .kill target reason =>
    let uid := mapper.toFerrix target
    if s.ownsLocalUid uid then (s.killByUid uid reason, .more)
    else s.applyIf (s.remoteUidAuthorized peerSid uid) peerSid (.kill uid reason) fun s => s.killByUid uid reason
  | .login uid account =>
    s.applyIf (s.remoteUidAuthorized peerSid uid) peerSid (.saccount uid (account.getD "*")) fun s =>
      s.remoteAccount uid account
  | .wallops source text =>
    let mask := s.remoteSourceMask source
    s.applyIf true peerSid (.swallops mask text) fun s => s.remoteWallops mask text
  | .chgHost uid host =>
    let uid := mapper.toFerrix uid
    s.applyIf (s.remoteUidAuthorized peerSid uid) peerSid (.schghost uid host) fun s => s.remoteChghost uid host
  | .invite source target channel =>
    let source := mapper.toFerrix source
    let target := mapper.toFerrix target
    if !s.remoteUidAuthorized peerSid source then (s, .more)
    else if s.ownsLocalUid target then (s.remoteInvite source target channel, .more)
    else match s.remoteUserByUid target with
      | some user => (s.sendTowards user.serverSid (.sinvite source target channel), .more)
      | none => (s, .more)
  | .save uid =>
    let uid := mapper.toFerrix uid
    if s.remoteUidAuthorized peerSid uid then
      -- the kill of a user that loses its UID as a nick is not sent
      match s.remoteNickChange uid uid with
      | (s, some _) => (s, .more)
      | (s, none) => (s.forwardToLinks peerSid (.nick uid uid), .more)
    else (s, .more)
  | .ping origin => (s.sendToLink peerSid (.pong origin), .more)
  | .squit sid reason =>
    if sid = peerSid then (s, .stop)
    else if s.routeOwner sid = some peerSid then
      ((s.splitRemoteServer sid splitReason).forwardToLinks peerSid (.squit sid reason), .more)
    else (s, .more)
  | .error _ => (s, .stop)
  | .unknown _ | .pass _ _ | .capab _ | .server _ _ | .svinfo _ _ | .ignore => (s, .more)

/-- A line arrives; when the loop stops the link is dropped. -/
def receiveTs6 (s : Server) (mapper : UidMapper) (peerSid : String) (event : Ts6In) : Server :=
  match s.handleTs6 mapper peerSid event with
  | (s, .more) => s
  | (s, .stop) => s.dropLink peerSid

/-- Frames arrive one after another. -/
def receiveAll (s : Server) (peerSid : String) (messages : List LinkMessage) : Server :=
  messages.foldl (fun s message => s.receive peerSid message) s

end Server

/-! ## What a line says -/

namespace Tables

/-- The native frames that do what a line does; those of a line that is refused are refused too, where there are any. -/
def natives (t : Tables) (mapper : UidMapper) (peerSid : String) : Ts6In → List LinkMessage
  | .sid name sid uplink description => [.sserver name sid (uplink.getD peerSid) description]
  | .euid sid uid nick user host account realname =>
    [.uid (sid.getD peerSid) uid 0 nick user host (account.getD "*") realname]
  | .nick uid nick => [.nick uid nick]
  | .quit uid reason => [.quit uid reason]
  | .sjoin channel ts members flags args =>
    (members.map fun member => .sjoin channel member.1 member.2.op member.2.voice ts) ++
      if 1 < (utf8 flags).length then [.smode channel "*" ts flags (modeArgsToFerrix flags args mapper)] else []
  | .join uid channel ts => [.sjoin channel uid false false ts]
  | .part uid channels reason => (partedChannels channels).map fun channel => .spart channel uid reason
  | .msg source target notice text =>
    if t.remoteUidAuthorized peerSid source then
      if isChannelTarget target then
        [.chanMessage (t.remoteSourceMask source) target notice none none none text]
      else
        let targetNick := (t.nickOfUid (mapper.toFerrix target)).getD target
        [.userMessage (t.remoteSourceMask source) targetNick notice none none none text]
    else []
  | .tmode source channel ts flags args =>
    let (authorized, stateSource) := t.ts6Actor peerSid source
    if authorized then [.smode channel stateSource ts flags (modeArgsToFerrix flags args mapper)] else []
  | .kick source channel target reason =>
    let (authorized, stateSource) := t.ts6Actor peerSid source
    if authorized then [.skick channel stateSource (mapper.toFerrix target) reason] else []
  | .topic source channel text =>
    if t.remoteUidAuthorized peerSid source then
      [.stopic channel source ((t.nickOfUid source).getD source) t.nowUnix text]
    else []
  | .tb channel setAt setBy text => [.stopic channel "*" setBy setAt text]
  | .away uid reason => [.saway uid reason]
  | .kill target reason =>
    -- a kill on its way to a third server is not passed on
    let uid := mapper.toFerrix target
    if t.ownsLocalUid uid || t.remoteUidAuthorized peerSid uid then [.kill uid reason] else []
  | .login uid account => [.saccount uid (account.getD "*")]
  | .wallops source text => [.swallops (t.remoteSourceMask source) text]
  | .chgHost uid host => [.schghost (mapper.toFerrix uid) host]
  | .invite source target channel =>
    let source := mapper.toFerrix source
    if t.remoteUidAuthorized peerSid source then [.sinvite source (mapper.toFerrix target) channel] else []
  | .save uid => [.nick (mapper.toFerrix uid) (mapper.toFerrix uid)]
  | .ping origin => [.ping origin]
  | .squit sid reason => [.squit sid reason]
  | .error reason => [.error reason]
  | .unknown _ | .pass _ _ | .capab _ | .server _ _ | .svinfo _ _ | .ignore => []

/-- The users of other servers have neither a UID of this one nor `*`, and their nicks are no masks. -/
structure Unforged (t : Tables) : Prop where
  registry : t.RegistryConsistent
  source : ∀ uid user, t.remoteUserByUid uid = some user → uid ≠ "*"
  foreign : ∀ uid user, t.remoteUserByUid uid = some user → t.localIdOfUid uid = none
  plain : ∀ uid user, t.remoteUserByUid uid = some user → '!' ∉ user.nick.toList

end Tables

/-- The account `*`, which stands for none between native servers, is not set, and no user loses its UID as a nick. -/
def Ts6In.Plain (s : Server) (mapper : UidMapper) : Ts6In → Prop
  | .euid _ _ _ _ _ account _ => account ≠ some "*"
  | .login _ account => account ≠ some "*"
  | .save uid => (s.remoteNickChange (mapper.toFerrix uid) (mapper.toFerrix uid)).2 = none
  | _ => True

theorem accountFrame {account : Option String} (plain : account ≠ some "*") :
    (if account.getD "*" = "*" then none else some (account.getD "*")) = account := by
  cases account with
  | none => rfl
  | some name =>
    have named : name ≠ "*" := fun same => plain (by rw [same])
    exact if_neg named

namespace Tables

variable {t : Tables} {peerSid source : String}

theorem remoteUidAuthorized_known (authorized : t.remoteUidAuthorized peerSid source = true) :
    ∃ user, t.remoteUserByUid source = some user ∧ t.routedVia peerSid user.serverSid = true := by
  rw [remoteUidAuthorized] at authorized
  cases known : t.remoteUserByUid source with
  | none =>
    rw [known] at authorized
    cases authorized
  | some user =>
    rw [known] at authorized
    exact ⟨user, rfl, authorized⟩

theorem linkSourceAuthorized_uid (authorized : t.remoteUidAuthorized peerSid source = true) :
    t.linkSourceAuthorized peerSid source = true := by
  rw [linkSourceAuthorized, authorized, Bool.or_true, Bool.true_or]

theorem linkSourceAuthorized_actor (authorized : (t.ts6Actor peerSid source).1 = true) :
    t.linkSourceAuthorized peerSid (t.ts6Actor peerSid source).2 = true := by
  rw [ts6Actor] at authorized ⊢
  split at authorized
  · rename_i server
    rw [if_pos server]
    rfl
  · rename_i user
    rw [if_neg user]
    exact linkSourceAuthorized_uid authorized

/-- The mask of a user that a peer may act for is one that the peer may speak for. -/
theorem Unforged.remoteSourceAuthorized (unforged : t.Unforged)
    (authorized : t.remoteUidAuthorized peerSid source = true) :
    t.remoteSourceAuthorized peerSid (t.remoteSourceMask source) = true := by
  obtain ⟨user, known, routed⟩ := remoteUidAuthorized_known authorized
  have plain := unforged.plain source user known
  have mask : t.remoteSourceMask source = user.hostmask := by
    rw [remoteSourceMask, if_neg (unforged.source source user known), unforged.foreign source user known, known]
    rfl
  have bang : containsChar user.hostmask '!' = true := by
    simp [containsChar, RemoteUser.hostmask, hostmask]
  have isUser : t.serverSourceSid user.hostmask = none := by
    rw [serverSourceSid, if_pos bang]
  have filed := (unforged.registry.known known).2
  rw [mask, Tables.remoteSourceAuthorized, isUser, Option.isSome_none, if_neg Bool.false_ne_true,
    RemoteUser.hostmask, beforeChar_hostmask plain, filed]
  exact routed

end Tables

/-! ## The two loops agree -/

namespace Server

variable {s : Server} {mapper : UidMapper} {peerSid : String}

theorem receive_sjoin (s : Server) (peerSid channel uid : String) (op voice : Bool) (ts : UInt64) :
    s.receive peerSid (.sjoin channel uid op voice ts) =
      (s.applyIf (s.remoteUidAuthorized peerSid uid) peerSid (.sjoin channel uid op voice ts) fun s =>
        s.remoteJoin channel uid ⟨op, voice⟩ ts).1 := by
  simp only [receive, handle, applyIf]
  cases s.remoteUidAuthorized peerSid uid <;> rfl

theorem receive_spart (s : Server) (peerSid channel uid reason : String) :
    s.receive peerSid (.spart channel uid reason) =
      if s.remoteUidAuthorized peerSid uid then
        (s.remotePart channel uid reason).forwardToLinks peerSid (.spart channel uid reason)
      else s := by
  simp only [receive, handle, applyIf]
  cases s.remoteUidAuthorized peerSid uid <;> rfl

/-- A part leaves the peer the right to speak for the user. -/
theorem remotePart_authorized (s : Server) (channel uid reason : String) (message : LinkMessage) :
    ((s.remotePart channel uid reason).forwardToLinks peerSid message).remoteUidAuthorized peerSid uid =
      s.remoteUidAuthorized peerSid uid := by
  rw [forwardToLinks_toTables, remotePart_toTables]
  split
  · rfl
  · rfl

theorem parts_refused {uid reason : String} (refused : s.remoteUidAuthorized peerSid uid = false)
    (channels : List String) :
    s.receiveAll peerSid (channels.map fun channel => .spart channel uid reason) = s := by
  induction channels with
  | nil => rfl
  | cons channel rest ih =>
    rw [List.map_cons, receiveAll, List.foldl_cons, receive_spart, if_neg (by simp [refused])]
    exact ih

theorem parts_applied {uid reason : String} (authorized : s.remoteUidAuthorized peerSid uid = true)
    (channels : List String) :
    s.receiveAll peerSid (channels.map fun channel => .spart channel uid reason) =
      channels.foldl (fun s channel =>
        (s.remotePart channel uid reason).forwardToLinks peerSid (.spart channel uid reason)) s := by
  induction channels generalizing s with
  | nil => rfl
  | cons channel rest ih =>
    rw [List.map_cons, receiveAll, List.foldl_cons, receive_spart, if_pos authorized]
    exact ih ((remotePart_authorized s channel uid reason _).trans authorized)

theorem receiveTs6_applyIf {event : Ts6In} {authorized : Bool} {message : LinkMessage} {act : Server → Server}
    (handled : s.handleTs6 mapper peerSid event = s.applyIf authorized peerSid message act) :
    s.receiveTs6 mapper peerSid event = (s.applyIf authorized peerSid message act).1 := by
  rw [receiveTs6, handled, applyIf]
  cases authorized <;> rfl

/-- A frame that is sent only if its source is authorized. -/
theorem receiveAll_if {authorized : Bool} {message : LinkMessage} {act : Server → Server}
    (applied : authorized = true → s.handle peerSid message = s.applyIf true peerSid message act) :
    s.receiveAll peerSid (if authorized then [message] else []) =
      (s.applyIf authorized peerSid message act).1 := by
  cases authorized with
  | false => rfl
  | true =>
    show s.receive peerSid message = _
    rw [receive, applied rfl]
    rfl

/-- Whatever the loop of a TS6 link does with a line, that of a native link does with its frames. -/
theorem receiveTs6_natives (unforged : s.Unforged) {event : Ts6In} (plain : event.Plain s mapper) :
    s.receiveTs6 mapper peerSid event = s.receiveAll peerSid (s.natives mapper peerSid event) := by
  cases event with
  | sid name sid uplink description => rfl
  | euid sid uid nick user host account realname =>
    have same : introduced (sid.getD peerSid) uid nick user host (account.getD "*") realname =
        ⟨sid.getD peerSid, uid, nick, user, host, account, realname, none, false, false, false⟩ := by
      rw [introduced, accountFrame plain]
    show s.receiveTs6 mapper peerSid _ =
      s.receive peerSid (.uid (sid.getD peerSid) uid 0 nick user host (account.getD "*") realname)
    simp only [receive, handle, same]
    rfl
  | nick uid nick => rfl
  | quit uid reason => rfl
  | sjoin channel ts members flags args =>
    rw [Tables.natives, receiveAll, List.foldl_append, List.foldl_map]
    by_cases moded : 1 < (utf8 flags).length
    · simp only [receive_sjoin, receiveTs6, handleTs6, if_pos moded]
      rfl
    · simp only [receive_sjoin, receiveTs6, handleTs6, if_neg moded]
      rfl
  | join uid channel ts => rfl
  | part uid channels reason =>
    rw [Tables.natives]
    simp only [receiveTs6, handleTs6]
    cases authorized : s.remoteUidAuthorized peerSid uid with
    | true => exact (parts_applied authorized _).symm
    | false => exact (parts_refused authorized _).symm
  | msg source target notice text =>
    cases authorized : s.remoteUidAuthorized peerSid source with
    | false =>
      simp only [receiveTs6, handleTs6, Tables.natives, authorized]
      rfl
    | true =>
      have speaks := unforged.remoteSourceAuthorized authorized
      cases room : isChannelTarget target with
      | true =>
        simp only [receiveTs6, handleTs6, Tables.natives, authorized, room, if_true, receiveAll, List.foldl_cons,
          List.foldl_nil, receive, handle, speaks]
      | false =>
        simp only [receiveTs6, handleTs6, Tables.natives, authorized, room, if_true, Bool.false_eq_true, if_false,
          receiveAll, List.foldl_cons, List.foldl_nil, receive, handle, speaks]
  | tmode source channel ts flags args =>
    have handled : s.handleTs6 mapper peerSid (.tmode source channel ts flags args) =
        s.applyIf (s.ts6Actor peerSid source).1 peerSid
          (.smode channel (s.ts6Actor peerSid source).2 ts flags (modeArgsToFerrix flags args mapper)) fun s' =>
            s'.remoteMode channel (s.ts6Actor peerSid source).2 ts flags (modeArgsToFerrix flags args mapper) := rfl
    rw [receiveTs6_applyIf handled]
    refine (receiveAll_if fun authorized => ?_).symm
    have acts := Tables.linkSourceAuthorized_actor authorized
    simp only [handle, acts]
  | kick source channel target reason =>
    have handled : s.handleTs6 mapper peerSid (.kick source channel target reason) =
        s.applyIf (s.ts6Actor peerSid source).1 peerSid
          (.skick channel (s.ts6Actor peerSid source).2 (mapper.toFerrix target) reason) fun s' =>
            s'.remoteKick channel (s.ts6Actor peerSid source).2 (mapper.toFerrix target) reason := rfl
    rw [receiveTs6_applyIf handled]
    refine (receiveAll_if fun authorized => ?_).symm
    have acts := Tables.linkSourceAuthorized_actor authorized
    simp only [handle, acts]
  | topic source channel text =>
    have handled : s.handleTs6 mapper peerSid (.topic source channel text) =
        s.applyIf (s.remoteUidAuthorized peerSid source) peerSid
          (.stopic channel source ((s.nickOfUid source).getD source) s.nowUnix text) fun s' =>
            s'.remoteTopic channel source ((s.nickOfUid source).getD source) s.nowUnix text := rfl
    rw [receiveTs6_applyIf handled]
    refine (receiveAll_if fun authorized => ?_).symm
    have acts := Tables.linkSourceAuthorized_uid authorized
    simp only [handle, acts]
  | tb channel setAt setBy text => rfl
  | away uid reason => rfl
  | kill target reason =>
    simp only [receiveTs6, handleTs6, Tables.natives]
    cases own : s.ownsLocalUid (mapper.toFerrix target) with
    | true => simp only [Bool.true_or, if_true, receiveAll, List.foldl_cons, List.foldl_nil, receive, handle, own]
    | false =>
      cases authorized : s.remoteUidAuthorized peerSid (mapper.toFerrix target) with
      | false => rfl
      | true =>
        simp only [Bool.false_or, Bool.false_eq_true, if_true, if_false, applyIf, receiveAll, List.foldl_cons,
          List.foldl_nil, receive, handle, own, authorized]
  | login uid account =>
    show s.receiveTs6 mapper peerSid _ = s.receive peerSid (.saccount uid (account.getD "*"))
    simp only [receive, handle, accountFrame plain]
    rfl
  | wallops source text => rfl
  | chgHost uid host => rfl
  | invite source target channel =>
    cases authorized : s.remoteUidAuthorized peerSid (mapper.toFerrix source) with
    | false =>
      simp only [receiveTs6, handleTs6, Tables.natives, authorized]
      rfl
    | true =>
      obtain ⟨user, known, -⟩ := Tables.remoteUidAuthorized_known authorized
      have isUser := unforged.source _ user known
      have frames : s.natives mapper peerSid (.invite source target channel) =
          [.sinvite (mapper.toFerrix source) (mapper.toFerrix target) channel] := by
        rw [Tables.natives, authorized]
        rfl
      rw [frames]
      show s.receiveTs6 mapper peerSid _ = s.receive peerSid _
      simp only [receive, handle, if_neg isUser]
      rfl
  | save uid =>
    rw [Ts6In.Plain] at plain
    simp only [receiveTs6, handleTs6, Tables.natives, receiveAll, List.foldl_cons, List.foldl_nil, receive, handle]
    cases s.remoteUidAuthorized peerSid (mapper.toFerrix uid) with
    | false => rfl
    | true =>
      generalize s.remoteNickChange (mapper.toFerrix uid) (mapper.toFerrix uid) = changed at plain ⊢
      obtain ⟨later, kill⟩ := changed
      obtain rfl : kill = none := plain
      rfl
  | ping origin => rfl
  | squit sid reason => rfl
  | error reason => rfl
  | unknown verb => rfl
  | pass password sid => rfl
  | capab caps => rfl
  | server name description => rfl
  | svinfo max min => rfl
  | ignore => rfl

end Server

/-! ## Servers with TS6 peers -/

/-- What happens to a server with peers of both kinds. -/
inductive PeerEvent where
  | line (peerSid : String) (mapper : UidMapper) (event : Ts6In)
  | frame (peerSid : String) (message : LinkMessage)
  | elsewhere (change : Server → Server)

/-- A line finds no forged users, and is plain. -/
def PeerEvent.Fair (s : Server) : PeerEvent → Prop
  | line _ mapper event => s.Unforged ∧ event.Plain s mapper
  | _ => True

namespace Server

def meet (s : Server) : PeerEvent → Server
  | .line peerSid mapper event => s.receiveTs6 mapper peerSid event
  | .frame peerSid message => s.receive peerSid message
  | .elsewhere change => change s

def meetAll (s : Server) (events : List PeerEvent) : Server :=
  events.foldl meet s

/-- The same events with every line in frames, each as the server stands when the line arrives. -/
def translated (s : Server) : List PeerEvent → List PeerEvent
  | [] => []
  | .line peerSid mapper event :: rest =>
    (s.natives mapper peerSid event).map (.frame peerSid) ++ (s.receiveTs6 mapper peerSid event).translated rest
  | .frame peerSid message :: rest => .frame peerSid message :: (s.receive peerSid message).translated rest
  | .elsewhere change :: rest => .elsewhere change :: (change s).translated rest

/-- Every event is fair when it happens. -/
def FairAlong (s : Server) : List PeerEvent → Prop
  | [] => True
  | event :: rest => event.Fair s ∧ (s.meet event).FairAlong rest

theorem meetAll_frames (s : Server) (peerSid : String) (messages : List LinkMessage) :
    s.meetAll (messages.map (.frame peerSid)) = s.receiveAll peerSid messages := by
  rw [meetAll, receiveAll, List.foldl_map]
  rfl

/-- A server with TS6 peers goes through a run as one whose peers send the frames of their lines. -/
theorem meetAll_translated {s : Server} {events : List PeerEvent} (fair : s.FairAlong events) :
    s.meetAll events = s.meetAll (s.translated events) := by
  induction events generalizing s with
  | nil => rfl
  | cons event rest ih =>
    obtain ⟨now, later⟩ := fair
    have onward := ih later
    cases event with
    | line peerSid mapper event =>
      obtain ⟨unforged, plain⟩ := now
      have frames : s.meetAll ((s.natives mapper peerSid event).map (.frame peerSid)) =
          s.receiveTs6 mapper peerSid event :=
        (meetAll_frames s peerSid _).trans (receiveTs6_natives unforged plain).symm
      rw [translated, meetAll, meetAll, List.foldl_append]
      rw [meetAll] at frames
      rw [frames]
      exact onward
    | frame peerSid message => exact onward
    | elsewhere change => exact onward

def ts6Bob : RemoteUser :=
  ⟨"2BB", "2BBAAAAAB", "bob", "bob", "b.example", none, "Bob", none, false, false, false⟩

/-- Bob is on the other side of a TS6 link. -/
def bobBridged : Server :=
  { Network.linkedAlpha with
    remoteUsers := AList.singleton "bob" ts6Bob
    remoteByUid := AList.singleton "2BBAAAAAB" "bob" }

/-- A line for a user that nobody knows is refused; then Bob goes away, and a native peer sends a ping. -/
def bobLeavesDesk : List PeerEvent :=
  [.line "2BB" {} (.quit "2BBAAAAAC" "gone"), .line "2BB" {} (.away "2BBAAAAAB" (some "lunch")),
    .frame "2BB" (.ping "alpha.example")]

theorem bobBridged_unforged : bobBridged.Unforged := by
  have known {uid : String} {user : RemoteUser} (found : bobBridged.remoteUserByUid uid = some user) :
      uid = "2BBAAAAAB" ∧ user.nick = "bob" := by
    rw [Tables.remoteUserByUid, Option.bind_eq_some_iff] at found
    obtain ⟨folded, index, held⟩ := found
    obtain ⟨rfl, rfl⟩ := Network.lookup_single index
    obtain ⟨-, rfl⟩ := Network.lookup_single held
    exact ⟨rfl, rfl⟩
  constructor
  case registry =>
    have noted (s : Server) : (Registry.remoteInsert ⟨∅, ∅⟩ (s.fold ts6Bob.nick) ts6Bob).Consistent s.fold :=
      Registry.Consistent.empty.remoteInsert (by simp)
    exact noted bobBridged
  case source =>
    intro uid user found
    rw [(known found).1]
    decide
  case foreign =>
    intro uid user found
    rw [(known found).1]
    decide +kernel
  case plain =>
    intro uid user found
    rw [(known found).2]
    decide

theorem meetAll_translated_bob :
    bobBridged.meetAll bobLeavesDesk = bobBridged.meetAll (bobBridged.translated bobLeavesDesk) := by
  have refused : bobBridged.meet (.line "2BB" {} (.quit "2BBAAAAAC" "gone")) = bobBridged := rfl
  refine meetAll_translated ⟨⟨bobBridged_unforged, trivial⟩, ?_⟩
  rw [refused]
  exact ⟨⟨bobBridged_unforged, trivial⟩, trivial, trivial⟩

end Server

end Ferrixd
