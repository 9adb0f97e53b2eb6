import Ferrixd.Data.Closure
import Ferrixd.State.Users

/-! # The link tree

Which servers are reachable through which peer.  The first peer to announce a SID owns the
route to it; what would close a cycle is refused. -/

namespace Ferrixd

/-- The quit reason of a user lost to a netsplit. -/
def splitReason : String := "*.net *.split"

namespace Tables

/-- The server that owns a name: a direct peer, else a server further away. -/
def serverNameOwner (t : Tables) (name : String) : Option String :=
  match t.links.findVal? fun link => eqIgnoreAsciiCase link.name name with
  | some link => some link.sid
  | none => (t.remoteServers.findVal? fun server => eqIgnoreAsciiCase server.name name).map (·.sid)

/-- The other server a name is already taken by. -/
def serverNameClash (t : Tables) (name sid : String) : Option String :=
  (t.serverNameOwner name).filter fun existing => existing != sid

/-- Whether a SID or a name is our own. -/
def isOwnIdentity (t : Tables) (sid name : String) : Bool :=
  sid = t.info.sid || eqIgnoreAsciiCase name t.info.name

def routeOwner (t : Tables) (sid : String) : Option String :=
  t.remoteRoutes.lookup sid

/-- Whether a server is routed through a peer. -/
def routedVia (t : Tables) (peerSid sid : String) : Bool :=
  (t.remoteRoutes.lookup sid).any fun owner => owner = peerSid

/-- Whether a peer may act for the remote user with this UID. -/
def remoteUidAuthorized (t : Tables) (peerSid uid : String) : Bool :=
  match t.remoteUserByUid uid with
  | some user => t.routedVia peerSid user.serverSid
  | none => false

/-- The SID that the source of a server's own message names; a user's has a `!` in it. -/
def serverSourceSid (t : Tables) (source : String) : Option String :=
  if containsChar source '!' then none else t.serverNameOwner source

def serverSourceAuthorized (t : Tables) (peerSid source : String) : Bool :=
  (t.serverSourceSid source).any fun sid => t.routedVia peerSid sid

/-- Whether a peer may relay a message with this display source. -/
def remoteSourceAuthorized (t : Tables) (peerSid source : String) : Bool :=
  if (t.serverSourceSid source).isSome then t.serverSourceAuthorized peerSid source
  else match t.remoteUsers.lookup (t.fold (beforeChar source '!')) with
    | some user => t.routedVia peerSid user.serverSid
    | none => false

def hasLinks (t : Tables) : Bool :=
  !t.links.entries.isEmpty

/-- The uplink subtree of a server. -/
def uplinkSubtree (t : Tables) (sid : String) : List String :=
  saturate RemoteServer.uplink RemoteServer.sid t.remoteServers.values t.remoteServers.values.length [sid]

/-- The UIDs of the users on the given servers. -/
def uidsBehind (t : Tables) (split : List String) : List String :=
  (t.remoteUsers.values.filter fun user => user.serverSid ∈ split).map (·.uid)

end Tables

namespace Server

/-- Claim the route to a SID for a peer, or check that the peer owns it. -/
def routeAuthorize (s : Server) (peerSid sid : String) : Server × Bool :=
  if sid = s.info.sid then (s, false)
  else match s.remoteRoutes.lookup sid with
    | some owner => (s, owner = peerSid)
    | none => ({ s with remoteRoutes := s.remoteRoutes.insert sid peerSid }, true)

/-- Register a peer link if it keeps the network a tree. -/
def tryRegisterLink (s : Server) (handle : LinkHandle) : Except String Server :=
  if s.isOwnIdentity handle.sid handle.name then
    .error ("Server " ++ handle.name ++ " (" ++ handle.sid ++ ") is our own identity")
  else match s.serverNameClash handle.name handle.sid with
    | some existing =>
      .error ("Server " ++ handle.name ++ " already exists (SID " ++ existing ++
        ") — link would create a loop")
    | none =>
      -- a server is reached over one link only
      match s.remoteRoutes.lookup handle.sid with
      | some owner =>
        .error ("Server " ++ handle.name ++ " (" ++ handle.sid ++ ") is already reachable via " ++
          owner ++ " — link would create a loop")
      | none =>
        .ok { s with
          remoteRoutes := s.remoteRoutes.insert handle.sid handle.sid
          links := s.links.insert handle.sid handle }

/-- Accept the introduction of a server behind a peer, unless it closes a cycle. -/
def acceptRemoteServer (s : Server) (peerSid : String) (server : RemoteServer) : Except String Server :=
  if s.isOwnIdentity server.sid server.name then
    .error ("Server " ++ server.name ++ " (" ++ server.sid ++ ") is our own identity — cycle detected")
  else match s.serverNameClash server.name server.sid with
    | some existing =>
      .error ("Server " ++ server.name ++ " already exists (SID " ++ existing ++ ") — cycle detected")
    | none =>
      match s.routeAuthorize peerSid server.sid with
      | (_, false) =>
        let via := (s.remoteRoutes.lookup server.sid).getD "another link"
        .error ("Server " ++ server.name ++ " (" ++ server.sid ++ ") is already reachable via " ++ via ++
          " — cycle detected")
      | (s, true) => .ok { s with remoteServers := s.remoteServers.insert server.sid server }

/-- Quit users one after the other. -/
def quitAll (s : Server) (uids : List String) (reason : String) : Server :=
  uids.foldl (fun s uid => s.remoteQuit uid reason) s

/-- Split a server and everything behind it, by recorded uplinks, off the network. -/
def splitRemoteServer (s : Server) (sid reason : String) : Server :=
  let split := s.uplinkSubtree sid
  let s := { s with
    remoteServers := s.remoteServers.retain fun key _ => key ∉ split
    remoteRoutes := s.remoteRoutes.retain fun key _ => key ∉ split }
  s.quitAll (s.uidsBehind split) reason

/-- Announce a newly linked peer to every other link. -/
def announceLinkToOthers (s : Server) (handle : LinkHandle) : Server :=
  s.forwardToLinks handle.sid (.sserver handle.name handle.sid s.info.sid handle.description)

/-- Drop a peer link and everything routed through it, and tell the rest of the network. -/
def dropLink (s : Server) (sid : String) : Server :=
  let s := { s with links := s.links.erase sid }
  let splitSids := (s.remoteRoutes.entries.filter fun route => route.2 = sid).map (·.1)
  let s := { s with
    remoteRoutes := s.remoteRoutes.retain fun _ owner => owner != sid
    remoteServers := s.remoteServers.retain fun key _ => key ∉ splitSids ∧ key ≠ sid }
  let s := s.quitAll (s.uidsBehind (sid :: splitSids)) splitReason
  s.propagateToLinks (.squit sid splitReason)

end Server

/-! ## What these do to the tables -/

namespace Topology

/-- The topology after the servers in `split` were forgotten. -/
def without (topology : Topology) (split : List String) : Topology :=
  ⟨topology.links, topology.remoteRoutes.retain fun key _ => key ∉ split,
    topology.remoteServers.retain fun key _ => key ∉ split⟩

/-- The SIDs routed through a peer. -/
def routedBehind (topology : Topology) (peerSid : String) : List String :=
  (topology.remoteRoutes.entries.filter fun route => route.2 = peerSid).map (·.1)

/-- The topology after a link was dropped. -/
def unlinked (topology : Topology) (sid : String) : Topology :=
  ⟨topology.links.erase sid, topology.remoteRoutes.retain fun _ owner => owner != sid,
    topology.remoteServers.retain fun key _ => key ∉ topology.routedBehind sid ∧ key ≠ sid⟩

theorem mem_routedBehind {topology : Topology} {peerSid sid : String} :
    sid ∈ topology.routedBehind peerSid ↔ topology.remoteRoutes.lookup sid = some peerSid := by
  simp only [routedBehind, List.mem_map, List.mem_filter, decide_eq_true_eq]
  constructor
  · intro ⟨⟨key, owner⟩, ⟨member, via⟩, same⟩
    subst via same
    exact Table.mem_entries_iff.mp member
  · intro found
    exact ⟨⟨sid, peerSid⟩, ⟨Table.mem_entries_iff.mpr found, rfl⟩, rfl⟩

end Topology

namespace Tables

/-- The tables after some users left. -/
def departedAll (t : Tables) (uids : List String) : Tables :=
  uids.foldl departed t

theorem departedAll_toTopology (t : Tables) (uids : List String) :
    (t.departedAll uids).toTopology = t.toTopology ∧ (t.departedAll uids).info = t.info := by
  refine foldl_invariant (I := fun later : Tables =>
    later.toTopology = t.toTopology ∧ later.info = t.info) _ _ ?_ t ⟨rfl, rfl⟩
  intro later uid _ same
  exact same

theorem departedAll_toLocals (t : Tables) (uids : List String) :
    (t.departedAll uids).toLocals = t.toLocals := by
  refine foldl_invariant (I := fun later : Tables => later.toLocals = t.toLocals) _ _ ?_ t rfl
  intro later uid _ same
  exact same

/-- The tables after the servers in `split` and their users were lost. -/
def splitOff (t : Tables) (split : List String) : Tables :=
  { t with toTopology := t.toTopology.without split }.departedAll (t.uidsBehind split)

/-- The tables after a link was dropped. -/
def linkDropped (t : Tables) (sid : String) : Tables :=
  { t with toTopology := t.toTopology.unlinked sid }.departedAll
    (t.uidsBehind (sid :: t.routedBehind sid))

theorem mem_uplinkSubtree {t : Tables} {sid other : String} :
    other ∈ t.uplinkSubtree sid ↔
      Relation.ReflTransGen (EdgeStep RemoteServer.uplink RemoteServer.sid t.remoteServers.values)
        sid other := by
  rw [uplinkSubtree, mem_saturate_iff]
  simp

theorem mem_uidsBehind {t : Tables} {split : List String} {uid : String} :
    uid ∈ t.uidsBehind split ↔
      ∃ folded user, t.remoteUsers.lookup folded = some user ∧ user.serverSid ∈ split ∧
        user.uid = uid := by
  simp only [uidsBehind, List.mem_map, List.mem_filter, Table.mem_values_iff, decide_eq_true_eq]
  constructor
  · intro ⟨user, ⟨⟨folded, found⟩, inside⟩, same⟩
    exact ⟨folded, user, found, inside, same⟩
  · intro ⟨folded, user, found, inside, same⟩
    exact ⟨user, ⟨⟨folded, found⟩, inside⟩, same⟩

end Tables

namespace Server

@[simp] theorem quitAll_toTables (s : Server) (uids : List String) (reason : String) :
    (s.quitAll uids reason).toTables = s.toTables.departedAll uids := by
  rw [quitAll, Tables.departedAll]
  induction uids generalizing s with
  | nil => rfl
  | cons uid rest ih => rw [List.foldl_cons, List.foldl_cons, ih, remoteQuit_toTables]

@[simp] theorem quitAll_frames (s : Server) (uids : List String) (reason : String) :
    (s.quitAll uids reason).fx.frames = s.fx.frames := by
  refine foldl_invariant (I := fun later : Server => later.fx.frames = s.fx.frames) _ _ ?_ s rfl
  intro later uid _ same
  rw [remoteQuit_frames, same]

@[simp] theorem splitRemoteServer_toTables (s : Server) (sid reason : String) :
    (s.splitRemoteServer sid reason).toTables = s.toTables.splitOff (s.uplinkSubtree sid) := by
  rw [splitRemoteServer, quitAll_toTables]
  rfl

@[simp] theorem splitRemoteServer_frames (s : Server) (sid reason : String) :
    (s.splitRemoteServer sid reason).fx.frames = s.fx.frames := by
  rw [splitRemoteServer, quitAll_frames]

@[simp] theorem dropLink_toTables (s : Server) (sid : String) :
    (s.dropLink sid).toTables = s.toTables.linkDropped sid := by
  rw [dropLink, propagateToLinks_toTables, quitAll_toTables]
  rfl

@[simp] theorem announceLinkToOthers_toTables (s : Server) (handle : LinkHandle) :
    (s.announceLinkToOthers handle).toTables = s.toTables := rfl

/-- What a successful registration requires, and what it does. -/
theorem tryRegisterLink_ok {s s' : Server} {handle : LinkHandle}
    (registered : s.tryRegisterLink handle = .ok s') :
    s.isOwnIdentity handle.sid handle.name = false ∧
      s.serverNameClash handle.name handle.sid = none ∧
      s.remoteRoutes.lookup handle.sid = none ∧
      s' = { s with
        remoteRoutes := s.remoteRoutes.insert handle.sid handle.sid
        links := s.links.insert handle.sid handle } := by
  rw [tryRegisterLink] at registered
  split at registered
  · cases registered
  · rename_i foreign
    cases clash : s.serverNameClash handle.name handle.sid with
    | some existing => simp [clash] at registered
    | none =>
      cases route : s.remoteRoutes.lookup handle.sid with
      | some owner => simp [clash, route] at registered
      | none =>
        simp only [clash, route, Except.ok.injEq] at registered
        exact ⟨by simpa using foreign, rfl, rfl, registered.symm⟩

/-- What claiming a route does. -/
theorem routeAuthorize_cases (s : Server) (peerSid sid : String) :
    (s.routeAuthorize peerSid sid = (s, false) ∧
        (sid = s.info.sid ∨ ∃ owner, s.remoteRoutes.lookup sid = some owner ∧ owner ≠ peerSid)) ∨
      (s.routeAuthorize peerSid sid = (s, true) ∧ sid ≠ s.info.sid ∧
        s.remoteRoutes.lookup sid = some peerSid) ∨
      (s.routeAuthorize peerSid sid =
          ({ s with remoteRoutes := s.remoteRoutes.insert sid peerSid }, true) ∧
        sid ≠ s.info.sid ∧ s.remoteRoutes.lookup sid = none) := by
  rw [routeAuthorize]
  by_cases own : sid = s.info.sid
  · rw [if_pos own]
    exact .inl ⟨rfl, .inl own⟩
  · rw [if_neg own]
    cases route : s.remoteRoutes.lookup sid with
    | none => exact .inr (.inr ⟨rfl, own, rfl⟩)
    | some owner =>
      by_cases same : owner = peerSid
      · subst same
        exact .inr (.inl ⟨by simp, own, rfl⟩)
      · exact .inl ⟨by simp [same], .inr ⟨owner, rfl, same⟩⟩

/-- What a successful introduction of a server requires, and what it does. -/
theorem acceptRemoteServer_ok {s s' : Server} {peerSid : String} {server : RemoteServer}
    (accepted : s.acceptRemoteServer peerSid server = .ok s') :
    s.isOwnIdentity server.sid server.name = false ∧
      s.serverNameClash server.name server.sid = none ∧
      (s.routeAuthorize peerSid server.sid).2 = true ∧
      s' = { (s.routeAuthorize peerSid server.sid).1 with
        remoteServers := s.remoteServers.insert server.sid server } := by
  rw [acceptRemoteServer] at accepted
  split at accepted
  · cases accepted
  · rename_i foreign
    cases clash : s.serverNameClash server.name server.sid with
    | some existing => simp [clash] at accepted
    | none =>
      obtain ⟨refused, -⟩ | ⟨owned, -, -⟩ | ⟨claimed, -, -⟩ := routeAuthorize_cases s peerSid server.sid
      · simp [clash, refused] at accepted
      · simp only [clash, owned, Except.ok.injEq] at accepted ⊢
        exact ⟨by simpa using foreign, trivial, trivial, accepted.symm⟩
      · simp only [clash, claimed, Except.ok.injEq] at accepted ⊢
        exact ⟨by simpa using foreign, trivial, trivial, accepted.symm⟩

end Server

end Ferrixd
