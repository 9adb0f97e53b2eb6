import Ferrixd.Command.Relay
import Ferrixd.Data.Replica
import Ferrixd.Network.Commands

/-! # The users that servers know of each other

Every server keeps a record of each user of the other servers.  When nothing is under way the records are those of
the users that are there. -/

namespace Ferrixd.Network

variable {V : Type} {n n' : Network V} {graph : SimpleGraph V} {mapping : CaseMapping}

/-! ## UIDs -/

/-- The UID of a client of a server. -/
def uidOf (n : Network V) (home : V) (id : UInt64) : String :=
  (n.server home).localUid id

/-- SIDs of one length can be told from what follows them. -/
theorem sid_of_lead (sids : ∀ v w, n.sid v = n.sid w → v = w) (lengths : ∀ v w, (n.sid v).length = (n.sid w).length)
    {v w : V} {left right : String} (same : n.sid v ++ left = n.sid w ++ right) : v = w := by
  have chars := congrArg String.toList same
  rw [String.toList_append, String.toList_append] at chars
  have equal : (n.sid v).toList.length = (n.sid w).toList.length := by
    rw [String.length_toList, String.length_toList]
    exact lengths v w
  exact sids v w (String.toList_inj.mp (List.append_inj chars equal).1)

theorem uidOf_injective (sids : ∀ v w, n.sid v = n.sid w → v = w) (lengths : ∀ v w, (n.sid v).length = (n.sid w).length)
    {home home' : V} {id id' : UInt64} (same : n.uidOf home id = n.uidOf home' id') : home = home' ∧ id = id' := by
  have isHome := sid_of_lead sids lengths (same : n.sid home ++ _ = n.sid home' ++ _)
  subst isHome
  exact ⟨rfl, (n.server home).toTables.localUid_injective same⟩

/-- A client of another server is not one of our own. -/
theorem foreign_uid (sids : ∀ v w, n.sid v = n.sid w → v = w) (lengths : ∀ v w, (n.sid v).length = (n.sid w).length)
    {home v : V} (apart : home ≠ v) (id : UInt64) : (n.server v).ownsLocalUid (n.uidOf home id) = false := by
  rw [Tables.ownsLocalUid, Tables.localIdOfUid]
  cases stripped : stripLead? (n.uidOf home id) (n.server v).info.sid with
  | none => rfl
  | some rest =>
    have leads : n.sid home ++ printU64 id = n.sid v ++ rest := stripLead?_some.mp stripped
    exact absurd (sid_of_lead sids lengths leads) apart

/-! ## What is known and what is said -/

/-- What one server knows of a client of another, and the other of itself. -/
def knownAt [DecidableEq V] (n : Network V) (home : V) (id : UInt64) (v : V) : Option RemoteUser :=
  if v = home then (n.node home).user id else (n.server v).remoteUserByUid (n.uidOf home id)

/-- The frames about one user on the links. -/
def wireAbout (n : Network V) (uid : String) (here next : V) : List LinkMessage :=
  (n.wire here next).filter fun message => message.subject = some uid

/-- The frames that a network without collisions carries: about users, about other things, and kills on their way
to the server of the victim. -/
def Travels (n : Network V) (graph : SimpleGraph V) (here next : V) (message : LinkMessage) : Prop :=
  message.neutral = true ∨
    (∃ home id, message.subject = some (n.uidOf home id) ∧ ∀ sid uid hops nick user host account realname,
      message = .uid sid uid hops nick user host account realname → sid = n.sid home) ∨
    ∃ home id reason, message = .kill (n.uidOf home id) reason ∧ Behind graph here next home

/-- A client has a nick on its own server, on another one, or in an announcement. -/
def Claims (n : Network V) (mapping : CaseMapping) (folded : String) (home : V) (id : UInt64) : Prop :=
  (n.server home).findClient folded = some id ∨
    (∃ v user, (n.server v).remoteUserByUid (n.uidOf home id) = some user ∧ mapping.fold user.nick = folded) ∨
    ∃ here next message nick, message ∈ n.wire here next ∧ message.subject = some (n.uidOf home id) ∧
      message.claim = some nick ∧ mapping.fold nick = folded

/-- No nick is claimed by two clients. -/
def Exclusive (n : Network V) (mapping : CaseMapping) : Prop :=
  ∀ folded home id home' id', n.Claims mapping folded home id → n.Claims mapping folded home' id' →
    home = home' ∧ id = id'

/-- Linked servers whose own tables are in order. -/
structure Sound (n : Network V) (graph : SimpleGraph V) (mapping : CaseMapping) : Prop where
  routed : n.Routed graph
  lengths : ∀ v w, (n.sid v).length = (n.sid w).length
  folds : ∀ v, (n.server v).info.casemapping = mapping
  flushed : n.Flushed
  locals : ∀ v, LocalConsistent (n.server v).toTables (n.node v).connected
  registry : ∀ v, (n.server v).RegistryConsistent

/-- What each server knows of a user is what its server said, and what it has not heard is on its way. -/
structure Acquainted [DecidableEq V] (n : Network V) (graph : SimpleGraph V) (mapping : CaseMapping) : Prop
    extends Sound n graph mapping where
  following : ∀ home id, Following graph heed home (n.knownAt home id) (n.wireAbout (n.uidOf home id))
  owned : ∀ v uid user, (n.server v).remoteUserByUid uid = some user →
    ∃ home id, home ≠ v ∧ graph.Reachable v home ∧ uid = n.uidOf home id ∧ user.serverSid = n.sid home
  travels : ∀ here next, ∀ message ∈ n.wire here next, n.Travels graph here next message
  exclusive : n.Exclusive mapping

/-! ## What a step leaves alone -/

/-- The servers keep their names and their links. -/
structure SameServers (n n' : Network V) : Prop where
  info : ∀ v, (n'.server v).info = (n.server v).info
  topology : ∀ v, (n'.server v).toTopology = (n.server v).toTopology

namespace SameServers

variable (same : SameServers n n')
include same

theorem sid (v : V) : n'.sid v = n.sid v :=
  congrArg ServerInfo.sid (same.info v)

theorem uidOf (home : V) (id : UInt64) : n'.uidOf home id = n.uidOf home id := by
  rw [Network.uidOf, Network.uidOf, Tables.localUid, Tables.localUid, same.info]

theorem routed (routed : n.Routed graph) : n'.Routed graph :=
  routed.of_same same.sid same.topology

theorem travels {here next : V} {message : LinkMessage} (travels : n.Travels graph here next message) :
    n'.Travels graph here next message := by
  simp only [Travels, same.uidOf, same.sid]
  exact travels

end SameServers

theorem SameServers.of_self {v : V} (info : (n'.server v).info = (n.server v).info)
    (topology : (n'.server v).toTopology = (n.server v).toTopology)
    (others : ∀ other, other ≠ v → n'.node other = n.node other) : SameServers n n' := by
  constructor
  · intro w
    by_cases here : w = v
    · rw [here, info]
    · rw [server, others w here]
  · intro w
    by_cases here : w = v
    · rw [here, topology]
    · rw [server, others w here]

/-- What is about nobody is about no user. -/
theorem filter_silent {messages : List LinkMessage} (silent : ∀ message ∈ messages, message.subject = none)
    (uid : String) : (messages.filter fun message => message.subject = some uid) = [] := by
  rw [List.filter_eq_nil_iff]
  intro message member
  rw [silent message member]
  simp

namespace Sound

variable (sound : n.Sound graph mapping)
include sound

theorem fold (v : V) : (n.server v).fold = mapping.fold := by
  funext name
  rw [Tables.fold, sound.folds]

theorem uid_injective {home home' : V} {id id' : UInt64} (same : n.uidOf home id = n.uidOf home' id') :
    home = home' ∧ id = id' :=
  uidOf_injective sound.routed.sids sound.lengths same

theorem sentTo_nil (v : V) (peerSid : String) : (n.server v).sentTo peerSid = [] := by
  rw [Server.sentTo, sound.flushed]
  rfl

/-- What is queued is what is sent. -/
theorem sentTo_of_frames (v : V) {s' : Server} {sent : List (String × LinkMessage)}
    (frames : s'.fx.frames = (n.server v).fx.frames ++ sent) (peerSid : String) :
    s'.sentTo peerSid = framesTo peerSid sent := by
  rw [Server.sentTo, frames, sound.flushed, List.nil_append]

/-- One server acts. -/
theorem step (same : SameServers n n') {v : V} (others : ∀ other, other ≠ v → n'.node other = n.node other)
    (flushed : (n'.server v).fx.frames = [])
    (locals : LocalConsistent (n'.server v).toTables (n'.node v).connected)
    (registry : (n'.server v).RegistryConsistent) : n'.Sound graph mapping := by
  have elsewhere (w : V) (apart : w ≠ v) : n'.server w = n.server w := by rw [server, others w apart]
  constructor
  case routed => exact same.routed sound.routed
  case lengths =>
    intro w w'
    rw [same.sid, same.sid]
    exact sound.lengths w w'
  case folds =>
    intro w
    rw [same.info]
    exact sound.folds w
  case flushed =>
    intro w
    by_cases here : w = v
    · rw [here, flushed]
    · rw [elsewhere w here]
      exact sound.flushed w
  case locals =>
    intro w
    by_cases here : w = v
    · rw [here]
      exact locals
    · rw [elsewhere w here, others w here]
      exact sound.locals w
  case registry =>
    intro w
    by_cases here : w = v
    · rw [here]
      exact registry
    · rw [elsewhere w here]
      exact sound.registry w

end Sound

namespace Acquainted

variable [DecidableEq V] (acquainted : n.Acquainted graph mapping)
include acquainted

/-- Whoever a server knows by the UID of a client of another server is on that server. -/
theorem known_sid {v home : V} {id : UInt64} {user : RemoteUser}
    (known : (n.server v).remoteUserByUid (n.uidOf home id) = some user) :
    home ≠ v ∧ graph.Reachable v home ∧ user.serverSid = n.sid home := by
  obtain ⟨owner, client, apart, reachable, same, sid⟩ := acquainted.owned v _ user known
  obtain ⟨rfl, rfl⟩ := acquainted.uid_injective same
  exact ⟨apart, reachable, sid⟩

/-- A nick that a frame about a user claims is free wherever the frame arrives. -/
theorem freeFor {here next home : V} {id : UInt64} {message : LinkMessage} {nick : String}
    (waiting : message ∈ n.wire here next) (about : message.subject = some (n.uidOf home id))
    (claim : message.claim = some nick) (apart : home ≠ next) :
    (n.server next).FreeFor nick (n.uidOf home id) := by
  have claims : n.Claims mapping ((n.server next).fold nick) home id :=
    .inr (.inr ⟨here, next, message, nick, waiting, about, claim, by rw [acquainted.fold]⟩)
  constructor
  · cases held : (n.server next).findClient ((n.server next).fold nick) with
    | none => rfl
    | some other => exact absurd (acquainted.exclusive _ _ _ _ _ claims (.inl held)).1 apart
  · intro holder held
    have registry := acquainted.registry next
    have known := registry.remoteUserByUid_of_nick held
    obtain ⟨owner, client, -, -, same, -⟩ := acquainted.owned next _ holder known
    rw [same] at known
    have filed : mapping.fold holder.nick = (n.server next).fold nick := by
      rw [← acquainted.fold next]
      exact (registry.filed _ _ held).symm
    obtain ⟨rfl, rfl⟩ := acquainted.exclusive _ _ _ _ _ claims (.inr (.inl ⟨next, holder, known, filed⟩))
    exact same

/-- A step that changes no user, and sends no frame about one. -/
theorem aside {v : V} {s' : Server} (rooms : RoomsOnly (n.server v).toTables s'.toTables)
    (locals : LocalConsistent s'.toTables (n.node v).connected)
    (self : n'.node v = ⟨s'.flushed, (n.node v).connected⟩) (others : ∀ other, other ≠ v → n'.node other = n.node other)
    (wires : ∀ here next home id, n'.wireAbout (n.uidOf home id) here next = n.wireAbout (n.uidOf home id) here next)
    (frames : ∀ here next, ∀ message ∈ n'.wire here next, message ∈ n.wire here next ∨
      message.subject = none ∧ n.Travels graph here next message) : n'.Acquainted graph mapping := by
  have server : n'.server v = s'.flushed := congrArg Node.server self
  have same : SameServers n n' := by
    refine SameServers.of_self ?_ ?_ others
    · rw [server]
      exact rooms.info
    · rw [server]
      exact rooms.topology
  have registry (w : V) : (n'.server w).toRegistry = (n.server w).toRegistry := by
    by_cases here : w = v
    · rw [here, server]
      exact rooms.registry
    · rw [Network.server, others w here]
  have byUid (w : V) (uid : String) : (n'.server w).remoteUserByUid uid = (n.server w).remoteUserByUid uid := by
    rw [Tables.remoteUserByUid, Tables.remoteUserByUid, registry]
  have clients (w : V) (folded : String) : (n'.server w).findClient folded = (n.server w).findClient folded := by
    by_cases here : w = v
    · rw [here, server]
      exact congrArg (fun clients => clients.lookup folded) rooms.clients.clients
    · rw [Network.server, others w here]
  have user (w : V) (id : UInt64) : (n'.node w).user id = (n.node w).user id := by
    by_cases here : w = v
    · rw [here, self]
      exact Node.user_sameClients rooms.info rooms.clients id
    · rw [others w here]
  have sound : n'.Sound graph mapping := by
    refine acquainted.toSound.step same others ?_ ?_ ((acquainted.registry v).of_same (registry v) (same.info v))
    · rw [server]
      rfl
    · rw [server, self]
      exact locals
  refine { sound with
    following := ?following, owned := ?owned, travels := ?travels, exclusive := ?exclusive }
  case following =>
    intro home id
    have value : n'.knownAt home id = n.knownAt home id := by
      funext w
      simp only [knownAt, user, byUid, same.uidOf]
    have wire : n'.wireAbout (n'.uidOf home id) = n.wireAbout (n.uidOf home id) := by
      funext here next
      rw [same.uidOf, wires]
    rw [value, wire]
    exact acquainted.following home id
  case owned =>
    intro w uid known found
    rw [byUid] at found
    simp only [same.uidOf, same.sid]
    exact acquainted.owned w uid known found
  case travels =>
    intro here next message sent
    refine same.travels ?_
    rcases frames here next message sent with before | ⟨-, travels⟩
    · exact acquainted.travels here next message before
    · exact travels
  case exclusive =>
    have claims {folded : String} {home : V} {id : UInt64} (claims : n'.Claims mapping folded home id) :
        n.Claims mapping folded home id := by
      rw [Claims] at claims ⊢
      simp only [clients, byUid, same.uidOf] at claims
      rcases claims with held | known | ⟨here, next, message, nick, sent, about, claim, isFolded⟩
      · exact .inl held
      · exact .inr (.inl known)
      · rcases frames here next message sent with before | ⟨silent, -⟩
        · exact .inr (.inr ⟨here, next, message, nick, before, about, claim, isFolded⟩)
        · rw [silent] at about
          cases about
    exact fun folded home id home' id' left right => acquainted.exclusive _ _ _ _ _ (claims left) (claims right)

end Acquainted

/-! ## Announcements -/

section Announced

variable [DecidableEq V] {v : V} {node' : Node} {who : UInt64} {claimed : Option String} {messages : List LinkMessage}

variable (announces : Announces (n.node v) node' who claimed messages)
include announces

variable (acquainted : n.Acquainted graph mapping)
include acquainted

end Announced

end Ferrixd.Network
