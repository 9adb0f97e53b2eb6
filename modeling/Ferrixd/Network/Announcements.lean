import Ferrixd.Command.Identity
import Ferrixd.Invariant.Frames
import Ferrixd.Network.Links
import Ferrixd.State.Silence
import Ferrixd.Ts6.Attribution

/-! # What servers tell each other about users

Every frame about a user changes one record.  A server that is told of a change makes it and tells its other
peers; a server that is told of a user it does not know does neither. -/

namespace Ferrixd

/-! ## Frames about users -/

namespace LinkMessage

/-- The user that a frame is about. -/
def subject : LinkMessage → Option String
  | .uid _ who _ _ _ _ _ _ | .nick who _ | .quit who _ | .saway who _ | .saccount who _ | .ssetname who _
  | .schghost who _ | .sumode who _ => some who
  | _ => none

/-- The nick that a frame gives to its user. -/
def claim : LinkMessage → Option String
  | .uid _ _ _ name _ _ _ _ | .nick _ name => some name
  | _ => none

/-- What a frame changes in the record of its user. -/
def revise : LinkMessage → RemoteUser → RemoteUser
  | .nick _ name, user => { user with nick := name }
  | .saway _ reason, user => { user with away := reason }
  | .saccount _ account, user => { user with account := if account = "*" then none else some account }
  | .ssetname _ realname, user => { user with realname }
  | .schghost _ host, user => { user with host }
  | .sumode _ flags, user => (flags.toList.foldl Server.umodeStep (user, true)).1
  | _, user => user

/-- Frames about channels, messages and server bans. -/
def neutral : LinkMessage → Bool
  | .userMessage _ _ _ _ _ _ _ | .tagMessage _ _ _ | .chanMessage _ _ _ _ _ _ _ | .sjoin _ _ _ _ _ | .spart _ _ _
  | .stopic _ _ _ _ _ | .smode _ _ _ _ _ | .skick _ _ _ _ | .swallops _ _ | .sinvite _ _ _ | .sknock _ _ _
  | .sredact _ _ _ _ | .srename _ _ _ _ | .sban _ _ _ _ => true
  | _ => false

theorem subject_of_neutral {message : LinkMessage} (neutral : message.neutral = true) : message.subject = none := by
  cases message <;> first | rfl | cases neutral

end LinkMessage

/-- What a server knows of a user after a frame about it.  A user that is known is not introduced again. -/
def heed (known : Option RemoteUser) (message : LinkMessage) : Option (Option RemoteUser) :=
  match message, known with
  | .uid _ _ _ _ _ _ _ _, some _ => none
  | .uid sid uid _ nick user host account realname, none =>
    some (some (Server.introduced sid uid nick user host account realname))
  | .quit _ _, _ => some none
  | message, known => some (known.map message.revise)

/-- The nick that is known is the one that was announced, or the one before. -/
theorem heed_nick {known : Option RemoteUser} {message : LinkMessage} {user : RemoteUser}
    (heeds : heed known message = some (some user)) :
    message.claim = some user.nick ∨ ∃ old, known = some old ∧ old.nick = user.nick := by
  cases message <;> cases known <;> cases heeds <;> first
    | exact .inl rfl
    | exact .inr ⟨_, rfl, rfl⟩
    | exact .inr ⟨_, rfl, (Server.umode_keepsKeys _ _).2.symm⟩

/-- A user stays on the server that introduced it. -/
theorem heed_sid {known : Option RemoteUser} {message : LinkMessage} {user : RemoteUser}
    (heeds : heed known message = some (some user)) :
    (∃ uid hops nick name host account realname,
      message = .uid user.serverSid uid hops nick name host account realname) ∨
    ∃ old, known = some old ∧ old.serverSid = user.serverSid := by
  have umodes (flags : List Char) (user : RemoteUser) :
      (flags.foldl Server.umodeStep (user, true)).1.serverSid = user.serverSid := by
    refine foldl_invariant (I := fun state : RemoteUser × Bool => state.1.serverSid = user.serverSid)
      Server.umodeStep flags ?_ (user, true) rfl
    rintro ⟨before, adding⟩ c - same
    simp only [Server.umodeStep]
    split <;> try exact same
    split <;> try exact same
    split <;> try exact same
    split <;> try exact same
    split <;> exact same
  cases message <;> cases known <;> cases heeds <;> first
    | exact .inl ⟨_, _, _, _, _, _, _, rfl⟩
    | exact .inr ⟨_, rfl, rfl⟩
    | exact .inr ⟨_, rfl, (umodes _ _).symm⟩

/-! ## The registry by UID -/

namespace Tables.RegistryConsistent

variable {t : Tables} (inv : t.RegistryConsistent)
include inv

theorem index_of_unknown {uid : String} (unknown : t.remoteUserByUid uid = none) :
    t.remoteByUid.lookup uid = none := by
  cases index : t.remoteByUid.lookup uid with
  | none => rfl
  | some folded =>
    obtain ⟨user, stored, -⟩ := (inv.inverse uid folded).mp index
    rw [Tables.remoteUserByUid, index, Option.bind_some, stored] at unknown
    cases unknown

/-- The introduction of a new user under a free nick. -/
theorem remoteUserByUid_noted {user : RemoteUser} (free : t.remoteUsers.lookup (t.fold user.nick) = none)
    (unknown : t.remoteUserByUid user.uid = none) (uid : String) :
    ({ t with toRegistry := t.toRegistry.remoteInsert (t.fold user.nick) user } : Tables).remoteUserByUid uid =
      if uid = user.uid then some user else t.remoteUserByUid uid := by
  have index := inv.index_of_unknown unknown
  have inserted : Tables.RegistryConsistent
      { t with toRegistry := t.toRegistry.remoteInsert (t.fold user.nick) user } :=
    Registry.Consistent.remoteInsert inv fun folded found => by rw [index] at found; cases found
  apply Option.ext
  intro known
  rw [inserted.remoteUserByUid_iff]
  show (t.toRegistry.remoteInsert (t.fold user.nick) user).remoteUsers.lookup (t.fold known.nick) = some known ∧ _ ↔ _
  rw [Registry.lookup_users_insert]
  split
  · rename_i same
    rw [Option.some.injEq]
    constructor
    · rintro ⟨rfl, rfl⟩
      rw [if_pos rfl]
    · intro found
      split at found
      · rename_i own
        cases found
        exact ⟨rfl, own.symm⟩
      · -- nobody else has the nick
        have stored := (inv.remoteUserByUid_iff.mp found).1
        rw [same, free] at stored
        cases stored
  · rename_i elsewhere
    rw [← inv.remoteUserByUid_iff]
    split
    · rename_i own
      rw [own, unknown, Option.some.injEq]
      exact iff_of_false nofun fun same => elsewhere (by rw [same])
    · exact .rfl

/-- The move of a user to a nick that nobody else has. -/
theorem remoteUserByUid_moved {uid newNick : String} {old : RemoteUser} (found : t.remoteUserByUid uid = some old)
    (free : ∀ holder, t.remoteUsers.lookup (t.fold newNick) = some holder → holder.uid = uid) (other : String) :
    (t.renamed uid newNick old).remoteUserByUid other =
      if other = uid then some { old with nick := newNick } else t.remoteUserByUid other := by
  obtain ⟨stored, own⟩ := inv.remoteUserByUid_iff.mp found
  apply Option.ext
  intro known
  rw [(inv.renamed newNick found).remoteUserByUid_iff]
  show ((⟨t.remoteUsers.erase (t.fold old.nick), t.remoteByUid⟩ : Registry).remoteInsert
    (t.fold newNick) { old with nick := newNick }).remoteUsers.lookup (t.fold known.nick) = some known ∧ _ ↔ _
  rw [Registry.lookup_users_insert]
  split
  · rename_i same
    rw [Option.some.injEq]
    constructor
    · rintro ⟨rfl, rfl⟩
      rw [if_pos own]
    · intro isKnown
      split at isKnown
      · rename_i isUid
        cases isKnown
        exact ⟨rfl, own.trans isUid.symm⟩
      · rename_i different
        obtain ⟨place, owner⟩ := inv.remoteUserByUid_iff.mp isKnown
        rw [same] at place
        exact absurd (owner.symm.trans (free known place)) different
  · rename_i elsewhere
    show (t.remoteUsers.erase (t.fold old.nick)).lookup (t.fold known.nick) = some known ∧ _ ↔ _
    rw [Table.lookup_erase_if]
    split
    · rename_i there
      refine iff_of_false (fun both => by cases both.1) fun isKnown => ?_
      split at isKnown
      · cases isKnown
        exact elsewhere rfl
      · rename_i different
        obtain ⟨place, owner⟩ := inv.remoteUserByUid_iff.mp isKnown
        rw [there, stored] at place
        cases place
        exact different (owner.symm.trans own)
    · rename_i notThere
      rw [← inv.remoteUserByUid_iff]
      split
      · rename_i isUid
        rw [isUid, found, Option.some.injEq, Option.some.injEq]
        exact iff_of_false (fun same => notThere (by rw [same])) fun same => elsewhere (by rw [← same])
      · exact .rfl

end Tables.RegistryConsistent

/-! ## Frames about other things -/

namespace RoomsOnly

theorem of_tables {t t' : Tables} (topology : t'.toTopology = t.toTopology) (registry : t'.toRegistry = t.toRegistry)
    (info : t'.info = t.info) (locals : t'.toLocals = t.toLocals) : RoomsOnly t t' :=
  ⟨topology, registry, info, .of_locals locals⟩

theorem killMatching (s : Server) (mask reason : String) :
    RoomsOnly s.toTables (s.killMatching mask reason).toTables := by
  refine foldl_invariant (I := fun later : Server => RoomsOnly s.toTables later.toTables) _ _ ?_ s (of_eq rfl)
  intro later id _ same
  exact same.trans ⟨rfl, rfl, rfl, .killed _ _ _⟩

theorem remoteGline (s : Server) (add : Bool) (mask setBy reason : String) :
    RoomsOnly s.toTables (s.remoteGline add mask setBy reason).toTables := by
  rw [Server.remoteGline]
  split
  · have added : RoomsOnly s.toTables (s.addKline mask reason setBy).toTables := of_tables rfl rfl rfl rfl
    exact added.trans (killMatching _ _ _)
  · exact of_tables rfl rfl rfl rfl

end RoomsOnly

/-- What does not concern users: they and the routes stay as they were, and what is sent on does not concern them
either. -/
structure Neutral (s s' : Server) : Prop where
  rooms : RoomsOnly s.toTables s'.toTables
  sends : Sends s s' fun frame => frame.neutral = true
  unnoticed : Unnoticed s s'

namespace Neutral

variable {s s' : Server} {peerSid : String} {message : LinkMessage}

theorem of_eq (same : s' = s) : Neutral s s' := by
  rw [same]
  exact ⟨.of_eq rfl, .of_frames rfl, .refl s⟩

theorem of_tables (tables : s'.toTables = s.toTables) (sends : Sends s s' fun frame => frame.neutral = true)
    (notices : s'.fx.notices = s.fx.notices) : Neutral s s' :=
  ⟨.of_eq tables, sends, .of_tables tables notices⟩

/-- A change that is passed on to every other peer. -/
theorem forwarded {later : Server} (neutral : message.neutral = true) (rooms : RoomsOnly s.toTables later.toTables)
    (silent : Silent s later) : Neutral s (later.forwardToLinks peerSid message) := by
  refine ⟨rooms, ⟨_, congrArg (· ++ _) silent.frames, fun frame sent => ?_⟩, silent.unnoticed.trans ⟨rfl, rfl⟩⟩
  obtain ⟨sid, -, rfl⟩ := List.mem_map.mp sent
  exact neutral

theorem applied {authorized : Bool} (change : Server → Server) (neutral : message.neutral = true)
    (handled : s.handle peerSid message = s.applyIf authorized peerSid message change)
    (rooms : RoomsOnly s.toTables (change s).toTables) (silent : Silent s (change s)) :
    Neutral s (s.receive peerSid message) := by
  rw [Server.receive, handled, Server.applyIf]
  cases authorized with
  | false => exact of_eq rfl
  | true => exact forwarded neutral rooms silent

end Neutral

namespace Server

variable (s : Server) (peerSid : String)

theorem relayToMembers_neutral {s : Server} {message : LinkMessage} (neutral : message.neutral = true)
    {channelName : String} {originSid : Option String} :
    Sends s (s.relayToMembers channelName originSid message) fun frame => frame.neutral = true :=
  .relayToMembers s channelName originSid neutral

theorem deliverRemoteMessage_neutral (source target : String) (notice : Bool) (msgid : Option String)
    (timeMs : Option UInt64) (tags : Option String) (text : String) :
    Neutral s (s.deliverRemoteMessage source target notice msgid timeMs tags text) := by
  refine .of_tables (deliverRemoteMessage_toTables _ _ _ _ _ _ _ _) ?_ ?_
  · rw [deliverRemoteMessage]
    dsimp only
    split
    · split <;> · cases msgid <;> exact .of_frames rfl
    · split
      · exact .sendTowards s _ rfl
      · exact .of_frames rfl
  · rw [deliverRemoteMessage]
    dsimp only
    split
    · split <;> · cases msgid <;> rfl
    · split
      · exact sendTowards_notices s _ _
      · rfl

theorem deliverTagmsg_neutral (source target tags : String) : Neutral s (s.deliverTagmsg peerSid source target tags) := by
  refine .of_tables (deliverTagmsg_toTables _ _ _ _ _) ?_ ?_
  · rw [deliverTagmsg]
    dsimp only
    split
    · split
      · exact .of_frames rfl
      · exact Sends.trans (.of_frames rfl) (relayToMembers_neutral rfl)
    · split
      · split <;> exact .of_frames rfl
      · split
        · exact .sendTowards s _ rfl
        · exact .of_frames rfl
  · rw [deliverTagmsg]
    dsimp only
    split
    · split
      · rfl
      · exact relayToMembers_notices _ _ _ _
    · split
      · split <;> rfl
      · split
        · exact sendTowards_notices s _ _
        · rfl

theorem deliverChannelMessage_neutral (source channelName : String) (notice : Bool) (msgid : Option String)
    (timeMs : Option UInt64) (tags : Option String) (text : String) :
    Neutral s (s.deliverChannelMessage peerSid source channelName notice msgid timeMs tags text) := by
  refine .of_tables (deliverChannelMessage_toTables _ _ _ _ _ _ _ _ _) ?_ ?_
  · rw [deliverChannelMessage]
    dsimp only
    split
    · exact .of_frames rfl
    · refine Sends.trans (.of_frames ?_) (relayToMembers_neutral rfl)
      split <;> · split <;> · cases msgid <;> rfl
  · rw [deliverChannelMessage]
    dsimp only
    split
    · rfl
    · refine (relayToMembers_notices _ _ _ _).trans ?_
      split <;> · split <;> · cases msgid <;> rfl

theorem invite_neutral (source target channel : String) :
    Neutral s (s.receive peerSid (.sinvite source target channel)) := by
  have kind : (LinkMessage.sinvite source target channel).neutral = true := rfl
  simp only [receive, handle]
  by_cases burst : source = "*"
  · -- an invitation that was pending elsewhere
    rw [if_pos burst]
    exact .forwarded kind (.remoteInvitePending s target channel) ⟨rfl, rfl, rfl⟩
  rw [if_neg burst]
  cases authorized : s.remoteUidAuthorized peerSid source with
  | false => exact .of_eq rfl
  | true =>
    simp only [Bool.not_true, Bool.false_eq_true, if_false]
    cases own : s.ownsLocalUid target with
    | true =>
      have silent := Silent.remoteInvite s source target channel
      exact ⟨.remoteInvite s source target channel, .of_frames silent.frames, silent.unnoticed⟩
    | false =>
      simp only [Bool.false_eq_true, if_false]
      cases s.remoteUserByUid target with
      | none => exact .of_eq rfl
      | some user => exact .of_tables (sendTowards_toTables _ _ _) (.sendTowards s _ kind) (sendTowards_notices s _ _)

/-- A frame that does not concern a user. -/
theorem receive_neutral {message : LinkMessage} (neutral : message.neutral = true) :
    Neutral s (s.receive peerSid message) := by
  cases message with
  | userMessage source target notice msgid timeMs tags text =>
    simp only [receive, handle]
    cases s.remoteSourceAuthorized peerSid source with
    | true => exact deliverRemoteMessage_neutral s source target notice msgid timeMs tags text
    | false => exact .of_eq rfl
  | tagMessage source target tags =>
    simp only [receive, handle]
    cases s.remoteSourceAuthorized peerSid source with
    | true => exact deliverTagmsg_neutral s peerSid source target tags
    | false => exact .of_eq rfl
  | chanMessage source channel notice msgid timeMs tags text =>
    simp only [receive, handle]
    cases s.remoteSourceAuthorized peerSid source with
    | true => exact deliverChannelMessage_neutral s peerSid source channel notice msgid timeMs tags text
    | false => exact .of_eq rfl
  | sjoin channel uid op voice ts =>
    exact .applied (fun s => s.remoteJoin channel uid ⟨op, voice⟩ ts) neutral rfl (.remoteJoin s _ _ _ _)
      (.remoteJoin s _ _ _ _)
  | spart channel uid reason =>
    exact .applied (fun s => s.remotePart channel uid reason) neutral rfl (.remotePart s _ _ _)
      (.remotePart s _ _ _)
  | stopic channel source setBy setAt text =>
    exact .applied (fun s => s.remoteTopic channel source setBy setAt text) neutral rfl
      (.remoteTopic s _ _ _ _ _) (.remoteTopic s _ _ _ _ _)
  | smode channel source ts flags args =>
    exact .applied (fun s => s.remoteMode channel source ts flags args) neutral rfl
      (.remoteMode s _ _ _ _ _) (.remoteMode s _ _ _ _ _)
  | skick channel source target reason =>
    exact .applied (fun s => s.remoteKick channel source target reason) neutral rfl
      (.remoteKick s _ _ _ _) (.remoteKick s _ _ _ _)
  | swallops source text =>
    exact .applied (fun s => s.remoteWallops source text) neutral rfl (.of_eq rfl) ⟨rfl, rfl, rfl⟩
  | sinvite source target channel => exact invite_neutral s peerSid source target channel
  | sknock source channel mask =>
    exact .applied (fun s => s.remoteKnock channel mask) neutral rfl
      (.of_eq (remoteKnock_toTables s channel mask)) (.remoteKnock s _ _)
  | sredact source target msgid reason =>
    exact .applied (fun s => s.remoteRedact source target msgid reason) neutral rfl
      (.of_eq (remoteRedact_toTables s source target msgid reason)) (.remoteRedact s _ _ _ _)
  | srename source old new reason =>
    exact .applied (fun s => s.remoteRename source old new reason) neutral rfl (.remoteRename s _ _ _ _)
      (.remoteRename s _ _ _ _)
  | sban add mask setBy reason =>
    exact .applied (fun s => s.remoteGline add mask setBy reason) neutral rfl (.remoteGline s _ _ _ _)
      (.remoteGline s _ _ _ _)
  | _ => cases neutral

end Server

/-! ## Frames about users -/

/-- Nobody but one user has a nick. -/
structure Tables.FreeFor (t : Tables) (nick uid : String) : Prop where
  clients : t.findClient (t.fold nick) = none
  users : ∀ holder, t.remoteUsers.lookup (t.fold nick) = some holder → holder.uid = uid

/-- What a server makes of a frame about a user: it knows the change, and tells its other peers unless there was
nothing to change. -/
structure Heeded (s s' : Server) (peerSid : String) (message : LinkMessage) (uid : String) (later : Option RemoteUser) :
    Prop where
  topology : s'.toTopology = s.toTopology
  info : s'.info = s.info
  clients : SameClients s.toTables s'.toTables
  registry : s'.RegistryConsistent
  knows : ∀ other, s'.remoteUserByUid other = if other = uid then later else s.remoteUserByUid other
  sent : (∀ far, s'.sentTo far = s.sentTo far ++ if far ∈ s.links ∧ far ≠ peerSid then [message] else []) ∨
    (∀ far, s'.sentTo far = s.sentTo far) ∧ later = s.remoteUserByUid uid

namespace Heeded

variable {s : Server} {peerSid uid : String} {message : LinkMessage} {later : Option RemoteUser}

/-- Whoever is not known cannot change. -/
theorem dropped (registry : s.RegistryConsistent) (unchanged : later = s.remoteUserByUid uid) :
    Heeded s s peerSid message uid later where
  topology := rfl
  info := rfl
  clients := .of_locals rfl
  registry := registry
  knows other := by
    split
    · rename_i same
      rw [same, unchanged]
    · rfl
  sent := .inr ⟨fun _ => rfl, unchanged⟩

/-- A change that sends nothing by itself is passed on. -/
theorem passed {s' : Server} (topology : s'.toTopology = s.toTopology) (info : s'.info = s.info)
    (clients : SameClients s.toTables s'.toTables) (registry : s'.RegistryConsistent)
    (knows : ∀ other, s'.remoteUserByUid other = if other = uid then later else s.remoteUserByUid other)
    (frames : s'.fx.frames = s.fx.frames) : Heeded s (s'.forwardToLinks peerSid message) peerSid message uid later where
  topology := topology
  info := info
  clients := clients
  registry := registry
  knows := knows
  sent := by
    left
    intro far
    rw [Server.sentTo_forwardToLinks, Server.sentTo_of_frames frames, show s'.links = s.links by rw [topology]]

/-- The data of a user changes. -/
theorem updated (registry : s.RegistryConsistent) (apply : Server → Server) {change : RemoteUser → RemoteUser}
    {authorized : Bool} (handled : s.handle peerSid message = s.applyIf authorized peerSid message apply)
    (tables : (apply s).toTables = { s.toTables with toRegistry := s.toRegistry.update uid change })
    (silent : Silent s (apply s)) (keepsKeys : ∀ user, (change user).uid = user.uid ∧ (change user).nick = user.nick)
    (known : authorized = false → s.remoteUserByUid uid = none) :
    Heeded s (s.receive peerSid message) peerSid message uid ((s.remoteUserByUid uid).map change) := by
  rw [Server.receive, handled, Server.applyIf]
  cases authorized with
  | false => exact .dropped registry (by rw [known rfl]; rfl)
  | true =>
    refine passed ?_ ?_ ?_ ?_ ?_ silent.frames
    · rw [tables]
    · rw [tables]
    · rw [tables]
      exact .of_locals rfl
    · rw [tables]
      exact Registry.Consistent.update registry keepsKeys
    · intro other
      rw [tables]
      exact registry.remoteUserByUid_updated uid other change

/-- A user leaves. -/
theorem departed (registry : s.RegistryConsistent) {reason : String}
    (known : s.remoteUidAuthorized peerSid uid = false → s.remoteUserByUid uid = none) :
    Heeded s (s.receive peerSid (.quit uid reason)) peerSid (.quit uid reason) uid none := by
  have handled : s.handle peerSid (.quit uid reason) = s.applyIf (s.remoteUidAuthorized peerSid uid) peerSid
    (.quit uid reason) fun s => s.remoteQuit uid reason := rfl
  rw [Server.receive, handled, Server.applyIf]
  cases authorized : s.remoteUidAuthorized peerSid uid with
  | false => exact .dropped registry (known authorized).symm
  | true =>
    have tables := s.remoteQuit_toTables uid reason
    refine passed ?_ ?_ ?_ ?_ ?_ (s.remoteQuit_frames uid reason)
    · rw [tables]
      rfl
    · rw [tables]
      rfl
    · rw [tables]
      exact .of_locals rfl
    · rw [tables]
      exact registry.departed uid
    · intro other
      rw [tables]
      exact registry.remoteUserByUid_departed uid other

/-- An introduction under a nick that nobody has. -/
theorem noted (registry : s.RegistryConsistent) {user : RemoteUser} (unknown : s.remoteUserByUid user.uid = none)
    (free : s.FreeFor user.nick user.uid) :
    (s.acceptRemoteUser user).2 = none ∧ Heeded s ((s.acceptRemoteUser user).1.forwardToLinks peerSid message) peerSid
      message user.uid (some user) := by
  have noUser : s.remoteUsers.lookup (s.fold user.nick) = none := by
    cases held : s.remoteUsers.lookup (s.fold user.nick) with
    | none => rfl
    | some holder =>
      have known := registry.remoteUserByUid_of_nick held
      rw [free.users holder held, unknown] at known
      cases known
  have accepted : s.acceptRemoteUser user =
      ((s.remoteInsert (s.fold user.nick) user).monitorOnlineMask user.hostmask, none) := by
    have noClient := free.clients
    simp only [Server.acceptRemoteUser, noClient, noUser]
  have tables : (s.acceptRemoteUser user).1.toTables =
      { s.toTables with toRegistry := s.toRegistry.remoteInsert (s.fold user.nick) user } := by
    rw [accepted]
    exact Server.monitorOnlineMask_toTables _ _
  refine ⟨by rw [accepted], passed ?_ ?_ ?_ ?_ ?_ ?_⟩
  · rw [tables]
  · rw [tables]
  · rw [tables]
    exact .of_locals rfl
  · rw [tables]
    refine Registry.Consistent.remoteInsert registry fun folded found => ?_
    rw [registry.index_of_unknown unknown] at found
    cases found
  · intro other
    rw [tables]
    exact registry.remoteUserByUid_noted noUser unknown other
  · rw [accepted, Server.monitorOnlineMask_frames, Server.remoteInsert_fx]

/-- A new user is introduced. -/
theorem introduced (registry : s.RegistryConsistent) {sid nick user host account realname : String} {hops : UInt64}
    (inNamespace : startsWith uid sid = true) (foreign : sid ≠ s.info.sid)
    (route : s.remoteRoutes.lookup sid = some peerSid) (unknown : s.remoteUserByUid uid = none)
    (free : s.FreeFor nick uid) :
    Heeded s (s.receive peerSid (.uid sid uid hops nick user host account realname)) peerSid
      (.uid sid uid hops nick user host account realname) uid
      (some (Server.introduced sid uid nick user host account realname)) := by
  have authorized : s.routeAuthorize peerSid sid = (s, true) := by
    rw [Server.routeAuthorize, if_neg foreign, route]
    simp
  have handled : s.handle peerSid (.uid sid uid hops nick user host account realname) =
      Server.answerOrForward peerSid (.uid sid uid hops nick user host account realname)
        (s.acceptRemoteUser (Server.introduced sid uid nick user host account realname)) := by
    simp only [Server.handle, inNamespace, Bool.not_true, Bool.false_eq_true, if_false, authorized]
  obtain ⟨unanswered, heeded⟩ :
      (s.acceptRemoteUser (Server.introduced sid uid nick user host account realname)).2 = none ∧
        Heeded s ((s.acceptRemoteUser (Server.introduced sid uid nick user host account realname)).1.forwardToLinks
          peerSid (.uid sid uid hops nick user host account realname)) peerSid
          (.uid sid uid hops nick user host account realname) uid
          (some (Server.introduced sid uid nick user host account realname)) := noted registry unknown free
  rw [Server.receive, handled]
  generalize s.acceptRemoteUser (Server.introduced sid uid nick user host account realname) = accepted at unanswered heeded
  obtain ⟨after, answer⟩ := accepted
  cases unanswered
  exact heeded

/-- A user takes another nick. -/
theorem renamed (registry : s.RegistryConsistent) {nick : String}
    (known : s.remoteUidAuthorized peerSid uid = false → s.remoteUserByUid uid = none) (free : s.FreeFor nick uid) :
    Heeded s (s.receive peerSid (.nick uid nick)) peerSid (.nick uid nick) uid
      ((s.remoteUserByUid uid).map fun user => { user with nick }) := by
  rw [Server.receive, Server.handle]
  cases authorized : s.remoteUidAuthorized peerSid uid with
  | false => exact .dropped registry (by rw [known authorized]; rfl)
  | true =>
    rw [if_pos rfl]
    cases found : s.remoteUserByUid uid with
    | none => simp [Tables.remoteUidAuthorized, found] at authorized
    | some old =>
      have same (other : String) (unchanged : s.remoteUserByUid uid = some { old with nick }) :
          s.remoteUserByUid other = if other = uid then some { old with nick } else s.remoteUserByUid other := by
        split
        · rename_i isUid
          rw [isUid, unchanged]
        · rfl
      by_cases unchanged : old.nick = nick
      · have untouched : s.remoteNickChange uid nick = (s, none) := by
          simp only [Server.remoteNickChange, found, if_pos unchanged]
        rw [untouched]
        refine passed rfl rfl (.of_locals rfl) registry (fun other => same other ?_) rfl
        rw [found, ← unchanged]
      · have changed : s.remoteNickChange uid nick = (s.applyNickChange uid nick old, none) := by
          by_cases sameFold : s.fold nick = s.fold old.nick
          · exact Server.remoteNickChange_case found unchanged sameFold
          · -- whoever has the new nick would be the user itself, which has another one
            have noUser : s.remoteUsers.lookup (s.fold nick) = none := by
              cases held : s.remoteUsers.lookup (s.fold nick) with
              | none => rfl
              | some holder =>
                obtain ⟨stored, own⟩ := registry.remoteUserByUid_iff.mp found
                exact absurd (registry.unique held stored ((free.users holder held).trans own.symm)) sameFold
            have noClient := free.clients
            simp only [Server.remoteNickChange, found, if_neg unchanged, if_neg sameFold, noClient, noUser]
        rw [changed]
        have tables := s.applyNickChange_toTables uid nick old
        refine passed ?_ ?_ ?_ ?_ ?_ (s.applyNickChange_frames uid nick old)
        · rw [tables]
          rfl
        · rw [tables]
          rfl
        · rw [tables]
          exact .of_locals rfl
        · rw [tables]
          exact registry.renamed nick found
        · intro other
          rw [tables]
          exact registry.remoteUserByUid_moved found free.users other

end Heeded

/-- What a peer may say of a user: that it is there, if the peer leads to its server, and what changes once it is. -/
structure Tables.MaySay (t : Tables) (peerSid uid : String) (message : LinkMessage) : Prop where
  routed : ∀ user, t.remoteUserByUid uid = some user → t.routedVia peerSid user.serverSid = true
  introduces : ∀ sid hops nick user host account realname,
    message = .uid sid uid hops nick user host account realname →
      startsWith uid sid = true ∧ sid ≠ t.info.sid ∧ t.remoteRoutes.lookup sid = some peerSid
  free : ∀ nick, message.claim = some nick → t.FreeFor nick uid

/-- A server heeds a frame about a user that the peer leads to. -/
theorem Server.receive_heeded {s : Server} {peerSid uid : String} {message : LinkMessage} {later : Option RemoteUser}
    (registry : s.RegistryConsistent) (about : message.subject = some uid) (entitled : s.MaySay peerSid uid message)
    (heeds : heed (s.remoteUserByUid uid) message = some later) :
    Heeded s (s.receive peerSid message) peerSid message uid later := by
  have known : s.remoteUidAuthorized peerSid uid = false → s.remoteUserByUid uid = none := by
    intro refused
    cases found : s.remoteUserByUid uid with
    | none => rfl
    | some user =>
      rw [Tables.remoteUidAuthorized, found] at refused
      exact absurd (entitled.routed user found) (Bool.eq_false_iff.mp refused)
  cases message with
  | uid sid who hops nick user host account realname =>
    cases about
    cases found : s.remoteUserByUid uid with
    | some user =>
      rw [found] at heeds
      cases heeds
    | none =>
      rw [found] at heeds
      cases heeds
      obtain ⟨inNamespace, foreign, route⟩ := entitled.introduces sid hops nick user host account realname rfl
      exact .introduced registry inNamespace foreign route found (entitled.free nick rfl)
  | nick who nick =>
    cases about
    cases heeds
    exact .renamed registry known (entitled.free nick rfl)
  | quit who reason =>
    cases about
    cases heeds
    exact .departed registry known
  | saway who reason =>
    cases about
    cases heeds
    exact .updated registry (fun s => s.remoteAway uid reason) rfl (s.changeRemoteUser_toTables uid _ _ _)
      (.changeRemoteUser s uid _ _ _) (fun _ => ⟨rfl, rfl⟩) known
  | saccount who account =>
    cases about
    cases heeds
    exact .updated registry (fun s => s.remoteAccount uid (if account = "*" then none else some account)) rfl (s.changeRemoteUser_toTables uid _ _ _)
      (.changeRemoteUser s uid _ _ _) (fun _ => ⟨rfl, rfl⟩) known
  | ssetname who realname =>
    cases about
    cases heeds
    exact .updated registry (fun s => s.remoteSetname uid realname) rfl (s.changeRemoteUser_toTables uid _ _ _)
      (.changeRemoteUser s uid _ _ _) (fun _ => ⟨rfl, rfl⟩) known
  | schghost who host =>
    cases about
    cases heeds
    exact .updated registry (fun s => s.remoteChghost uid host) rfl (s.changeRemoteUser_toTables uid _ _ _)
      (.changeRemoteUser s uid _ _ _) (fun _ => ⟨rfl, rfl⟩) known
  | sumode who flags =>
    cases about
    cases heeds
    exact .updated registry (fun s => s.remoteUmode uid flags) rfl (s.updateRemoteUser_toTables uid _)
      (.updateRemoteUser s uid _) (Server.umode_keepsKeys flags.toList) known
  | _ => cases about

/-! ## Kills on their way -/

/-- A kill of one of our own clients only asks it to go. -/
theorem Server.receive_kill_own {s : Server} {peerSid uid reason : String} (own : s.ownsLocalUid uid = true) :
    RoomsOnly s.toTables (s.receive peerSid (.kill uid reason)).toTables ∧
      (s.receive peerSid (.kill uid reason)).fx.frames = s.fx.frames := by
  obtain ⟨id, isLocal⟩ := Option.isSome_iff_exists.mp own
  rw [receive, handle, if_pos own]
  show RoomsOnly s.toTables (s.killByUid uid reason).toTables ∧ (s.killByUid uid reason).fx.frames = _
  rw [killByUid, isLocal]
  dsimp only
  split
  · exact ⟨⟨rfl, rfl, rfl, .killed _ _ _⟩, rfl⟩
  · exact ⟨.of_eq rfl, rfl⟩

/-- A kill on its way to the server of its victim is passed on towards it. -/
theorem Server.receive_kill_passing {s : Server} {peerSid uid reason : String} (foreign : s.ownsLocalUid uid = false)
    (inward : s.remoteUidAuthorized peerSid uid = false) :
    s.receive peerSid (.kill uid reason) =
      ((s.remoteUserByUid uid).elim s fun victim => s.sendTowards victim.serverSid (.kill uid reason)) := by
  simp only [receive, handle, foreign, inward, Bool.false_eq_true, if_false]
  cases s.remoteUserByUid uid <;> rfl

end Ferrixd
