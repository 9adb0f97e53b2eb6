import Ferrixd.State.Topology

/-! # The route and topology invariant

Links, routes and known servers are three tables that must agree.  They do in every run of
the link loops in which no peer introduces its own SID as a server behind it. -/

namespace Ferrixd

/-! ## The invariant -/

/-- The names a server knows, and who holds them. -/
inductive Tables.Named (t : Tables) : String → String → Prop where
  | own : t.Named t.info.sid t.info.name
  | peer {sid : String} {link : LinkHandle} (linked : t.links.lookup sid = some link) :
      t.Named sid link.name
  | behind {sid : String} {server : RemoteServer} (known : t.remoteServers.lookup sid = some server) :
      t.Named sid server.name

structure RouteInvariant (t : Tables) : Prop where
  /-- No route leads to ourselves. -/
  ownUnrouted : t.remoteRoutes.lookup t.info.sid = none
  linkKey : ∀ sid link, t.links.lookup sid = some link → link.sid = sid
  serverKey : ∀ sid server, t.remoteServers.lookup sid = some server → server.sid = sid
  /-- A direct peer is its own route. -/
  linkRouted : ∀ sid ∈ t.links, t.remoteRoutes.lookup sid = some sid
  routeLinked : ∀ sid owner, t.remoteRoutes.lookup sid = some owner → owner ∈ t.links
  linkNotBehind : ∀ sid ∈ t.links, sid ∉ t.remoteServers
  serverRouted : ∀ sid ∈ t.remoteServers, ∃ owner, t.remoteRoutes.lookup sid = some owner
  namesDistinct : ∀ sid name other otherName, t.Named sid name → t.Named other otherName →
    eqIgnoreAsciiCase name otherName = true → sid = other

/-- The invariant reads nothing but the topology and our own identity. -/
theorem RouteInvariant.of_same {t t' : Tables} (inv : RouteInvariant t)
    (topology : t'.toTopology = t.toTopology) (info : t'.info = t.info) : RouteInvariant t' := by
  have named : ∀ sid name, t'.Named sid name → t.Named sid name := by
    intro sid name holds
    cases holds with
    | own => rw [info]; exact .own
    | peer linked => rw [topology] at linked; exact .peer linked
    | behind known => rw [topology] at known; exact .behind known
  constructor
  case ownUnrouted => rw [topology, info]; exact inv.ownUnrouted
  case linkKey => rw [topology]; exact inv.linkKey
  case serverKey => rw [topology]; exact inv.serverKey
  case linkRouted => rw [topology]; exact inv.linkRouted
  case routeLinked => rw [topology]; exact inv.routeLinked
  case linkNotBehind => rw [topology]; exact inv.linkNotBehind
  case serverRouted => rw [topology]; exact inv.serverRouted
  case namesDistinct =>
    intro sid name other otherName holds otherHolds
    exact inv.namesDistinct sid name other otherName (named _ _ holds) (named _ _ otherHolds)

namespace Tables

/-- A name that passes the checks of a registration is held by nobody else. -/
theorem name_free {t : Tables} (inv : RouteInvariant t) {sid name : String}
    (foreign : t.isOwnIdentity sid name = false) (noClash : t.serverNameClash name sid = none) :
    ∀ other otherName, t.Named other otherName → eqIgnoreAsciiCase otherName name = true →
      other = sid := by
  -- whoever the lookup by name returns holds the name, and is not another server
  have owner : ∀ other, t.serverNameOwner name = some other → other = sid := by
    intro other found
    simpa [serverNameClash, found, Option.filter] using noClash
  intro other otherName holds same
  have held : ∀ first firstName, t.Named first firstName → eqIgnoreAsciiCase firstName name = true →
      other = first := by
    intro first firstName firstHolds firstSame
    refine inv.namesDistinct _ _ _ _ holds firstHolds ?_
    rw [eqIgnoreAsciiCase_iff] at same firstSame ⊢
    rw [same, firstSame]
  cases byLink : t.links.findVal? fun link => eqIgnoreAsciiCase link.name name with
  | some link =>
    obtain ⟨matching, key, linked⟩ := Table.findVal?_some byLink
    have first : t.serverNameOwner name = some link.sid := by simp only [serverNameOwner, byLink]
    rw [← owner _ first, inv.linkKey _ _ linked]
    exact held _ _ (.peer linked) matching
  | none =>
    cases byServer : t.remoteServers.findVal? fun server => eqIgnoreAsciiCase server.name name with
    | some server =>
      obtain ⟨matching, key, known⟩ := Table.findVal?_some byServer
      have first : t.serverNameOwner name = some server.sid := by
        simp only [serverNameOwner, byLink, byServer, Option.map_some]
      rw [← owner _ first, inv.serverKey _ _ known]
      exact held _ _ (.behind known) matching
    | none =>
      -- nobody found at all, so the holder could only be ourselves
      cases holds with
      | own =>
        rw [eqIgnoreAsciiCase_comm] at same
        simp [isOwnIdentity, same] at foreign
      | peer linked =>
        rw [Table.findVal?_none.mp byLink _ _ linked] at same
        cases same
      | behind known =>
        rw [Table.findVal?_none.mp byServer _ _ known] at same
        cases same

/-- Names stay distinct when one free name is added. -/
theorem names_distinct_of_added {t t' : Tables} (inv : RouteInvariant t) (sid name : String)
    (added : ∀ other otherName, t'.Named other otherName →
      (other = sid ∧ otherName = name) ∨ t.Named other otherName)
    (free : ∀ other otherName, t.Named other otherName → eqIgnoreAsciiCase otherName name = true →
      other = sid) :
    ∀ first firstName second secondName, t'.Named first firstName → t'.Named second secondName →
      eqIgnoreAsciiCase firstName secondName = true → first = second := by
  intro first firstName second secondName holds otherHolds same
  cases added _ _ holds with
  | inl new =>
    cases added _ _ otherHolds with
    | inl otherNew => rw [new.1, otherNew.1]
    | inr old =>
      rw [new.2, eqIgnoreAsciiCase_comm] at same
      rw [new.1, free _ _ old same]
  | inr old =>
    cases added _ _ otherHolds with
    | inl new =>
      rw [new.2] at same
      rw [new.1, free _ _ old same]
    | inr otherOld => exact inv.namesDistinct _ _ _ _ old otherOld same

end Tables

/-! ## What each operation keeps -/

namespace RouteInvariant

theorem new (info : ServerInfo) (historyLen historyMaxTargets : Nat) :
    RouteInvariant (Server.new info historyLen historyMaxTargets).toTables := by
  constructor
  case namesDistinct =>
    intro sid name other otherName holds otherHolds _
    cases holds with
    | own =>
      cases otherHolds with
      | own => rfl
      | peer linked => cases linked
      | behind known => cases known
    | peer linked => cases linked
    | behind known => cases known
  case linkRouted => exact fun sid linked => absurd linked (AList.notMem_empty sid)
  case linkNotBehind => exact fun sid _ => AList.notMem_empty sid
  case serverRouted => exact fun sid known => absurd known (AList.notMem_empty sid)
  all_goals simp [Server.new]

theorem tryRegisterLink {s s' : Server} {handle : LinkHandle} (inv : RouteInvariant s.toTables)
    (registered : s.tryRegisterLink handle = .ok s') : RouteInvariant s'.toTables := by
  obtain ⟨foreign, noClash, vacant, rfl⟩ := Server.tryRegisterLink_ok registered
  have notOwn : ¬ s.info.sid = handle.sid := by
    intro same
    simp [Tables.isOwnIdentity, same] at foreign
  constructor
  case ownUnrouted =>
    show (s.remoteRoutes.insert handle.sid handle.sid).lookup s.info.sid = none
    rw [Table.lookup_insert_if, if_neg notOwn]
    exact inv.ownUnrouted
  case linkKey =>
    intro sid link linked
    have found : (s.links.insert handle.sid handle).lookup sid = some link := linked
    rw [Table.lookup_insert_if] at found
    split at found
    · rename_i same
      cases found
      exact same.symm
    · exact inv.linkKey _ _ found
  case serverKey => exact inv.serverKey
  case linkRouted =>
    intro sid linked
    show (s.remoteRoutes.insert handle.sid handle.sid).lookup sid = some sid
    rw [Table.lookup_insert_if]
    split
    · rename_i same
      rw [same]
    · rename_i other
      exact inv.linkRouted sid ((AList.mem_insert _).mp linked |>.resolve_left other)
  case routeLinked =>
    intro sid owner routed
    have found : (s.remoteRoutes.insert handle.sid handle.sid).lookup sid = some owner := routed
    show owner ∈ s.links.insert handle.sid handle
    rw [Table.lookup_insert_if] at found
    rw [AList.mem_insert]
    split at found
    · exact .inl (Option.some.inj found).symm
    · exact .inr (inv.routeLinked _ _ found)
  case linkNotBehind =>
    intro sid linked known
    cases (AList.mem_insert _).mp linked with
    | inl same =>
      -- a known server has a route, and the new peer has none
      obtain ⟨owner, routed⟩ := inv.serverRouted sid known
      rw [same, vacant] at routed
      cases routed
    | inr old => exact inv.linkNotBehind sid old known
  case serverRouted =>
    intro sid known
    obtain ⟨owner, routed⟩ := inv.serverRouted sid known
    refine ⟨owner, ?_⟩
    show (s.remoteRoutes.insert handle.sid handle.sid).lookup sid = some owner
    have different : ¬ sid = handle.sid := by
      intro same
      rw [same, vacant] at routed
      cases routed
    rw [Table.lookup_insert_if, if_neg different, routed]
  case namesDistinct =>
    refine Tables.names_distinct_of_added inv handle.sid handle.name ?_
      (Tables.name_free inv foreign noClash)
    intro other otherName holds
    cases holds with
    | own => exact .inr .own
    | peer linked =>
      rw [Table.lookup_insert_if] at linked
      split at linked
      · rename_i same
        cases linked
        exact .inl ⟨same, rfl⟩
      · exact .inr (.peer linked)
    | behind known => exact .inr (.behind known)

theorem routeAuthorize {s : Server} {peerSid : String} (inv : RouteInvariant s.toTables)
    (linked : peerSid ∈ s.links) (sid : String) :
    RouteInvariant (s.routeAuthorize peerSid sid).1.toTables := by
  obtain ⟨refused, -⟩ | ⟨owned, -, -⟩ | ⟨claimed, notOwn, vacant⟩ := Server.routeAuthorize_cases s peerSid sid
  · rw [refused]; exact inv
  · rw [owned]; exact inv
  rw [claimed]
  constructor
  case ownUnrouted =>
    show (s.remoteRoutes.insert sid peerSid).lookup s.info.sid = none
    rw [Table.lookup_insert_if, if_neg (Ne.symm notOwn)]
    exact inv.ownUnrouted
  case linkKey => exact inv.linkKey
  case serverKey => exact inv.serverKey
  case linkRouted =>
    intro other otherLinked
    have routed := inv.linkRouted other otherLinked
    -- a link has its own route, and the claimed one was vacant
    have different : ¬ other = sid := by
      intro same
      rw [same, vacant] at routed
      cases routed
    show (s.remoteRoutes.insert sid peerSid).lookup other = some other
    rw [Table.lookup_insert_if, if_neg different, routed]
  case routeLinked =>
    intro other owner routed
    have found : (s.remoteRoutes.insert sid peerSid).lookup other = some owner := routed
    rw [Table.lookup_insert_if] at found
    split at found
    · rw [← Option.some.inj found]; exact linked
    · exact inv.routeLinked _ _ found
  case linkNotBehind => exact inv.linkNotBehind
  case serverRouted =>
    intro other known
    show ∃ owner, (s.remoteRoutes.insert sid peerSid).lookup other = some owner
    rw [Table.lookup_insert_if]
    split
    · exact ⟨peerSid, rfl⟩
    · exact inv.serverRouted other known
  case namesDistinct =>
    intro first firstName second secondName holds otherHolds
    have named : ∀ other name,
        ({ s with remoteRoutes := s.remoteRoutes.insert sid peerSid } : Server).Named other name →
          s.Named other name := by
      intro other name holds
      cases holds with
      | own => exact .own
      | peer linked => exact .peer linked
      | behind known => exact .behind known
    exact inv.namesDistinct _ _ _ _ (named _ _ holds) (named _ _ otherHolds)

/-- Knowing a server further away, given that it is not the announcing peer itself. -/
theorem acceptRemoteServer {s s' : Server} {peerSid : String} {server : RemoteServer}
    (inv : RouteInvariant s.toTables) (linked : peerSid ∈ s.links) (notPeer : server.sid ≠ peerSid)
    (accepted : s.acceptRemoteServer peerSid server = .ok s') : RouteInvariant s'.toTables := by
  obtain ⟨foreign, noClash, authorized, rfl⟩ := Server.acceptRemoteServer_ok accepted
  have middle := inv.routeAuthorize linked server.sid
  obtain ⟨sameLinks, sameServers, sameInfo, routed⟩ : (s.routeAuthorize peerSid server.sid).1.links = s.links ∧
      (s.routeAuthorize peerSid server.sid).1.remoteServers = s.remoteServers ∧
      (s.routeAuthorize peerSid server.sid).1.info = s.info ∧
      (s.routeAuthorize peerSid server.sid).1.remoteRoutes.lookup server.sid = some peerSid := by
    obtain ⟨refused, -⟩ | ⟨owned, -, routed⟩ | ⟨claimed, -, -⟩ :=
      Server.routeAuthorize_cases s peerSid server.sid
    · rw [refused] at authorized
      cases authorized
    · rw [owned]
      exact ⟨rfl, rfl, rfl, routed⟩
    · rw [claimed]
      exact ⟨rfl, rfl, rfl, AList.lookup_insert _⟩
  generalize (s.routeAuthorize peerSid server.sid).1 = claimed at middle sameLinks sameServers sameInfo routed
  constructor
  case ownUnrouted => exact middle.ownUnrouted
  case linkKey => exact middle.linkKey
  case serverKey =>
    intro sid known found
    have inserted : (s.remoteServers.insert server.sid server).lookup sid = some known := found
    rw [Table.lookup_insert_if] at inserted
    split at inserted
    · rename_i same
      cases inserted
      exact same.symm
    · exact inv.serverKey _ _ inserted
  case linkRouted => exact middle.linkRouted
  case routeLinked => exact middle.routeLinked
  case linkNotBehind =>
    intro sid isLinked known
    cases (AList.mem_insert _).mp known with
    | inl same =>
      -- a linked server is routed through itself, so it would be the announcing peer
      have own := middle.linkRouted sid isLinked
      rw [same, routed] at own
      exact notPeer (Option.some.inj own).symm
    | inr old => exact middle.linkNotBehind sid isLinked (by rw [sameServers]; exact old)
  case serverRouted =>
    intro sid known
    cases (AList.mem_insert _).mp known with
    | inl same => exact ⟨peerSid, by rw [same]; exact routed⟩
    | inr old => exact middle.serverRouted sid (by rw [sameServers]; exact old)
  case namesDistinct =>
    refine Tables.names_distinct_of_added inv server.sid server.name ?_
      (Tables.name_free inv foreign noClash)
    intro other otherName holds
    cases holds with
    | own =>
      right
      show s.Named claimed.info.sid claimed.info.name
      rw [sameInfo]
      exact .own
    | peer isLinked => exact .inr (.peer (by rw [← sameLinks]; exact isLinked))
    | behind known =>
      have inserted : (s.remoteServers.insert server.sid server).lookup other = some _ := known
      rw [Table.lookup_insert_if] at inserted
      split at inserted
      · rename_i same
        cases inserted
        exact .inl ⟨same, rfl⟩
      · exact .inr (.behind inserted)

/-- Forgetting servers that are not linked themselves. -/
theorem without {t t' : Tables} {split : List String} (inv : RouteInvariant t)
    (topology : t'.toTopology = t.toTopology.without split) (info : t'.info = t.info)
    (noLinks : ∀ sid ∈ split, sid ∉ t.links) : RouteInvariant t' := by
  have routes : ∀ sid owner, t'.remoteRoutes.lookup sid = some owner →
      t.remoteRoutes.lookup sid = some owner ∧ sid ∉ split := by
    intro sid owner found
    simpa [topology, Topology.without, Option.filter_eq_some_iff] using found
  have servers : ∀ sid server, t'.remoteServers.lookup sid = some server →
      t.remoteServers.lookup sid = some server ∧ sid ∉ split := by
    intro sid server found
    simpa [topology, Topology.without, Option.filter_eq_some_iff] using found
  have links : t'.links = t.links := by rw [topology]; rfl
  constructor
  case ownUnrouted =>
    rw [info, Option.eq_none_iff_forall_ne_some]
    intro owner found
    have old := (routes _ _ found).1
    rw [inv.ownUnrouted] at old
    cases old
  case linkKey => rw [links]; exact inv.linkKey
  case serverKey => exact fun sid server found => inv.serverKey sid server (servers _ _ found).1
  case linkRouted =>
    intro sid linked
    rw [links] at linked
    -- the route of a link stays, as no link is split off
    have kept : sid ∉ split := fun inside => noLinks sid inside linked
    simp [topology, Topology.without, inv.linkRouted sid linked, kept, Option.filter]
  case routeLinked =>
    rw [links]
    exact fun sid owner found => inv.routeLinked sid owner (routes _ _ found).1
  case linkNotBehind =>
    intro sid linked known
    rw [links] at linked
    obtain ⟨server, found⟩ := Option.isSome_iff_exists.mp (AList.lookup_isSome.mpr known)
    exact inv.linkNotBehind sid linked (AList.lookup_isSome.mp (by rw [(servers _ _ found).1]; rfl))
  case serverRouted =>
    intro sid known
    obtain ⟨server, found⟩ := Option.isSome_iff_exists.mp (AList.lookup_isSome.mpr known)
    obtain ⟨old, kept⟩ := servers _ _ found
    obtain ⟨owner, routed⟩ := inv.serverRouted sid (AList.lookup_isSome.mp (by rw [old]; rfl))
    exact ⟨owner, by simp [topology, Topology.without, routed, kept, Option.filter]⟩
  case namesDistinct =>
    have named : ∀ sid name, t'.Named sid name → t.Named sid name := by
      intro sid name holds
      cases holds with
      | own => rw [info]; exact .own
      | peer linked => rw [links] at linked; exact .peer linked
      | behind known => exact .behind (servers _ _ known).1
    intro first firstName second secondName holds otherHolds
    exact inv.namesDistinct _ _ _ _ (named _ _ holds) (named _ _ otherHolds)

/-- Forgetting a link and everything routed through it. -/
theorem unlinked {t t' : Tables} {peerSid : String} (inv : RouteInvariant t)
    (topology : t'.toTopology = t.toTopology.unlinked peerSid) (info : t'.info = t.info) :
    RouteInvariant t' := by
  have routes : ∀ sid owner, t'.remoteRoutes.lookup sid = some owner →
      t.remoteRoutes.lookup sid = some owner ∧ owner ≠ peerSid := by
    intro sid owner found
    simpa [topology, Topology.unlinked, Option.filter_eq_some_iff] using found
  have servers : ∀ sid server, t'.remoteServers.lookup sid = some server →
      t.remoteServers.lookup sid = some server ∧ t.remoteRoutes.lookup sid ≠ some peerSid := by
    intro sid server found
    have both : t.remoteServers.lookup sid = some server ∧ sid ∉ t.routedBehind peerSid ∧ sid ≠ peerSid := by
      simpa [topology, Topology.unlinked, Option.filter_eq_some_iff] using found
    exact ⟨both.1, fun routed => both.2.1 (Topology.mem_routedBehind.mpr routed)⟩
  have links : ∀ sid, t'.links.lookup sid = if sid = peerSid then none else t.links.lookup sid := by
    intro sid
    rw [topology]
    exact Table.lookup_erase_if _ _ _
  have linked_iff : ∀ sid, sid ∈ t'.links ↔ sid ≠ peerSid ∧ sid ∈ t.links := by
    intro sid
    rw [topology]
    exact AList.mem_erase
  constructor
  case ownUnrouted =>
    rw [info, Option.eq_none_iff_forall_ne_some]
    intro owner found
    have old := (routes _ _ found).1
    rw [inv.ownUnrouted] at old
    cases old
  case linkKey =>
    intro sid link found
    rw [links] at found
    split at found
    · cases found
    · exact inv.linkKey _ _ found
  case serverKey => exact fun sid server found => inv.serverKey sid server (servers _ _ found).1
  case linkRouted =>
    intro sid linked
    obtain ⟨other, old⟩ := (linked_iff sid).mp linked
    simp [topology, Topology.unlinked, inv.linkRouted sid old, other, Option.filter]
  case routeLinked =>
    intro sid owner found
    obtain ⟨old, other⟩ := routes _ _ found
    exact (linked_iff owner).mpr ⟨other, inv.routeLinked _ _ old⟩
  case linkNotBehind =>
    intro sid linked known
    obtain ⟨server, found⟩ := Option.isSome_iff_exists.mp (AList.lookup_isSome.mpr known)
    refine inv.linkNotBehind sid ((linked_iff sid).mp linked).2 (AList.lookup_isSome.mp ?_)
    rw [(servers _ _ found).1]
    rfl
  case serverRouted =>
    intro sid known
    obtain ⟨server, found⟩ := Option.isSome_iff_exists.mp (AList.lookup_isSome.mpr known)
    obtain ⟨old, kept⟩ := servers _ _ found
    obtain ⟨owner, routed⟩ := inv.serverRouted sid (AList.lookup_isSome.mp (by rw [old]; rfl))
    -- a server that stays had a route over another link
    have other : owner ≠ peerSid := fun same => kept (by rw [routed, same])
    exact ⟨owner, by simp [topology, Topology.unlinked, routed, other, Option.filter]⟩
  case namesDistinct =>
    have named : ∀ sid name, t'.Named sid name → t.Named sid name := by
      intro sid name holds
      cases holds with
      | own => rw [info]; exact .own
      | peer linked =>
        rw [links] at linked
        split at linked
        · cases linked
        · exact .peer linked
      | behind known => exact .behind (servers _ _ known).1
    intro first firstName second secondName holds otherHolds
    exact inv.namesDistinct _ _ _ _ (named _ _ holds) (named _ _ otherHolds)

/-- The subtree a peer may split off contains no direct link. -/
theorem uplinkSubtree_unlinked {t : Tables} (inv : RouteInvariant t) {peerSid sid : String}
    (routed : t.routeOwner sid = some peerSid) (notPeer : sid ≠ peerSid) :
    ∀ other ∈ t.uplinkSubtree sid, other ∉ t.links := by
  intro other inside linked
  cases (Tables.mem_uplinkSubtree.mp inside).cases_tail with
  | inl same =>
    have own := inv.linkRouted other linked
    rw [same, ← Tables.routeOwner, routed] at own
    exact notPeer (Option.some.inj own).symm
  | inr step =>
    obtain ⟨_, -, server, known, -, same⟩ := step
    obtain ⟨key, found⟩ := Table.mem_values_iff.mp known
    rw [← same, inv.serverKey _ _ found] at linked
    exact inv.linkNotBehind key linked (AList.lookup_isSome.mp (by rw [found]; rfl))

theorem splitRemoteServer {s : Server} (inv : RouteInvariant s.toTables) {peerSid sid : String}
    (routed : s.routeOwner sid = some peerSid) (notPeer : sid ≠ peerSid) (reason : String) :
    RouteInvariant (s.splitRemoteServer sid reason).toTables := by
  rw [Server.splitRemoteServer_toTables]
  obtain ⟨topology, info⟩ := Tables.departedAll_toTopology
    { s.toTables with toTopology := s.toTopology.without (s.uplinkSubtree sid) }
    (s.uidsBehind (s.uplinkSubtree sid))
  exact inv.without topology info (inv.uplinkSubtree_unlinked routed notPeer)

theorem dropLink {s : Server} (inv : RouteInvariant s.toTables) (sid : String) :
    RouteInvariant (s.dropLink sid).toTables := by
  rw [Server.dropLink_toTables]
  obtain ⟨topology, info⟩ := Tables.departedAll_toTopology
    { s.toTables with toTopology := s.toTopology.unlinked sid }
    (s.uidsBehind (sid :: s.routedBehind sid))
  exact inv.unlinked topology info

end RouteInvariant

/-! ## Runs of the link loops -/

/-- The calls the link loops make. -/
inductive LinkCall where
  | tryRegisterLink (handle : LinkHandle)
  | acceptRemoteServer (peerSid : String) (server : RemoteServer)
  | routeAuthorize (peerSid sid : String)
  | splitRemoteServer (peerSid sid : String)
  | dropLink (sid : String)

namespace LinkCall

/-- When a loop makes a call: a peer's loop runs while the peer is linked, and it splits only
servers other than the peer that are routed through it. -/
def Issued (s : Server) : LinkCall → Prop
  | tryRegisterLink _ => True
  | acceptRemoteServer peerSid _ => peerSid ∈ s.links
  | routeAuthorize peerSid _ => peerSid ∈ s.links
  | splitRemoteServer peerSid sid => peerSid ∈ s.links ∧ sid ≠ peerSid ∧ s.routeOwner sid = some peerSid
  | dropLink sid => sid ∈ s.links

def perform (s : Server) : LinkCall → Server
  | tryRegisterLink handle => (s.tryRegisterLink handle).toOption.getD s
  | acceptRemoteServer peerSid server => (s.acceptRemoteServer peerSid server).toOption.getD s
  | routeAuthorize peerSid sid => (s.routeAuthorize peerSid sid).1
  | splitRemoteServer _ sid => s.splitRemoteServer sid splitReason
  | dropLink sid => s.dropLink sid

/-- A server whose topology is changed by the link loops, starting empty. -/
def machine : Machine Server LinkCall where
  start s := ∃ info historyLen historyMaxTargets, s = Server.new info historyLen historyMaxTargets
  step s call s' := call.Issued s ∧ s' = call.perform s

/-- Not the introduction of a peer by itself as a server behind it. -/
def IntroducesOthers (call : LinkCall) : Prop :=
  ∀ peerSid server, call = acceptRemoteServer peerSid server → server.sid ≠ peerSid

/-- Whether a call splits the server with this SID, whose route `owner` holds. -/
def Splits (s : Server) (owner sid : String) (call : LinkCall) : Prop :=
  call = dropLink owner ∨ ∃ peerSid root, call = splitRemoteServer peerSid root ∧ sid ∈ s.uplinkSubtree root

/-- A route keeps its owner, or it is gone because its server was split. -/
def KeepsRoutes (s s' : Server) (call : LinkCall) : Prop :=
  ∀ sid owner, s.routeOwner sid = some owner →
    s'.routeOwner sid = some owner ∨ (s'.routeOwner sid = none ∧ call.Splits s owner sid)

theorem perform_routeInvariant {s : Server} {call : LinkCall} (inv : RouteInvariant s.toTables)
    (issued : call.Issued s) (others : call.IntroducesOthers) :
    RouteInvariant (call.perform s).toTables := by
  cases call with
  | tryRegisterLink handle =>
    rw [perform]
    cases result : s.tryRegisterLink handle with
    | error reason => exact inv
    | ok s' => exact inv.tryRegisterLink result
  | acceptRemoteServer peerSid server =>
    rw [perform]
    cases result : s.acceptRemoteServer peerSid server with
    | error reason => exact inv
    | ok s' => exact inv.acceptRemoteServer issued (others peerSid server rfl) result
  | routeAuthorize peerSid sid => exact inv.routeAuthorize issued sid
  | splitRemoteServer peerSid sid => exact inv.splitRemoteServer issued.2.2 issued.2.1 splitReason
  | dropLink sid => exact inv.dropLink sid

theorem perform_keepsRoutes (s : Server) (call : LinkCall) : call.KeepsRoutes s (call.perform s) := by
  intro sid owner routed
  rw [Tables.routeOwner] at routed ⊢
  -- a claim only ever fills a vacant route
  have claim : ∀ peerSid other, (s.routeAuthorize peerSid other).1.remoteRoutes.lookup sid = some owner := by
    intro peerSid other
    obtain ⟨refused, -⟩ | ⟨owned, -, -⟩ | ⟨claimed, -, vacant⟩ := Server.routeAuthorize_cases s peerSid other
    · rw [refused]; exact routed
    · rw [owned]; exact routed
    · rw [claimed]
      have different : ¬ sid = other := by
        intro same
        rw [same, vacant] at routed
        cases routed
      show (s.remoteRoutes.insert other peerSid).lookup sid = some owner
      rw [Table.lookup_insert_if, if_neg different, routed]
  cases call with
  | tryRegisterLink handle =>
    left
    rw [perform]
    cases result : s.tryRegisterLink handle with
    | error reason => exact routed
    | ok s' =>
      obtain ⟨-, -, vacant, rfl⟩ := Server.tryRegisterLink_ok result
      have different : ¬ sid = handle.sid := by
        intro same
        rw [same, vacant] at routed
        cases routed
      show (s.remoteRoutes.insert handle.sid handle.sid).lookup sid = some owner
      rw [Table.lookup_insert_if, if_neg different, routed]
  | acceptRemoteServer peerSid server =>
    left
    rw [perform]
    cases result : s.acceptRemoteServer peerSid server with
    | error reason => exact routed
    | ok s' =>
      obtain ⟨-, -, -, rfl⟩ := Server.acceptRemoteServer_ok result
      exact claim peerSid server.sid
  | routeAuthorize peerSid other => exact .inl (claim peerSid other)
  | splitRemoteServer peerSid root =>
    have topology := (Tables.departedAll_toTopology
      { s.toTables with toTopology := s.toTopology.without (s.uplinkSubtree root) }
      (s.uidsBehind (s.uplinkSubtree root))).1
    rw [perform, Server.splitRemoteServer_toTables, Tables.splitOff, topology]
    by_cases inside : sid ∈ s.uplinkSubtree root
    · right
      exact ⟨by simp [Topology.without, routed, inside, Option.filter],
        .inr ⟨peerSid, root, rfl, inside⟩⟩
    · left
      simp [Topology.without, routed, inside, Option.filter]
  | dropLink peerSid =>
    have topology := (Tables.departedAll_toTopology
      { s.toTables with toTopology := s.toTopology.unlinked peerSid }
      (s.uidsBehind (peerSid :: s.routedBehind peerSid))).1
    rw [perform, Server.dropLink_toTables, Tables.linkDropped, topology]
    by_cases same : owner = peerSid
    · subst same
      right
      exact ⟨by simp [Topology.unlinked, routed, Option.filter], .inl rfl⟩
    · left
      simp [Topology.unlinked, routed, same, Option.filter]

/-- In every run in which peers introduce only other servers, the topology is well formed in
every state, and every call keeps the owners of the routes it does not split. -/
theorem run_routeInvariant {s : Server}
    (run : machine.GuardedRun (fun _ call => call.IntroducesOthers) s) :
    RouteInvariant s.toTables ∧
      ∀ call s', machine.step s call s' → call.KeepsRoutes s s' := by
  constructor
  · refine run.invariant (I := fun s => RouteInvariant s.toTables) ?_ ?_
    · intro state ⟨info, historyLen, historyMaxTargets, fresh⟩
      rw [fresh]
      exact .new info historyLen historyMaxTargets
    · intro state call next inv others ⟨issued, performed⟩
      rw [performed]
      exact perform_routeInvariant inv issued others
  · intro call s' ⟨_, performed⟩
    rw [performed]
    exact perform_keepsRoutes s call

/-- `beta.example` links to it. -/
def linkBeta : LinkCall :=
  tryRegisterLink ⟨"2BB", "beta.example", "Beta"⟩

/-- `beta.example` introduces `gamma.example` behind itself. -/
def introduceGamma : LinkCall :=
  acceptRemoteServer "2BB" ⟨"3CC", "gamma.example", "2BB", "Gamma"⟩

/-- `beta.example` introduces itself. -/
def introduceItself : LinkCall :=
  acceptRemoteServer "2BB" ⟨"2BB", "beta.example", "3CC", "Beta"⟩

theorem run_routeInvariant_gamma :
    RouteInvariant (introduceGamma.perform (linkBeta.perform .alpha)).toTables ∧
      ∀ call s', machine.step (introduceGamma.perform (linkBeta.perform .alpha)) call s' →
        call.KeepsRoutes (introduceGamma.perform (linkBeta.perform .alpha)) s' := by
  apply run_routeInvariant
  refine .step (e := introduceGamma) (.step (e := linkBeta) (.start ⟨_, _, _, rfl⟩) ?_ ⟨trivial, rfl⟩)
    ?_ ⟨?_, rfl⟩
  · intro peerSid server same
    cases same
  · intro peerSid server same
    cases same
    decide
  · show "2BB" ∈ (linkBeta.perform .alpha).links
    decide

/-- A peer that introduces itself becomes both a direct link and a server behind one. -/
theorem selfIntroduction_breaks :
    ¬ ∀ s, machine.Reachable s → RouteInvariant s.toTables := by
  intro holds
  have run : machine.Reachable (introduceItself.perform (linkBeta.perform .alpha)) := by
    refine .step (e := introduceItself)
      (.step (e := linkBeta) (.start ⟨_, _, _, rfl⟩) trivial ⟨trivial, rfl⟩) trivial ⟨?_, rfl⟩
    show "2BB" ∈ (linkBeta.perform .alpha).links
    decide
  have linked : "2BB" ∈ (introduceItself.perform (linkBeta.perform .alpha)).links := by decide
  have behind : "2BB" ∈ (introduceItself.perform (linkBeta.perform .alpha)).remoteServers := by decide
  exact (holds _ run).linkNotBehind "2BB" linked behind

end LinkCall

end Ferrixd
