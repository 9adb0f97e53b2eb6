import Ferrixd.Invariant.Membership
import Ferrixd.Link

/-! # What the checks of a link rely on

A peer is judged by the routes and by the index of remote users.  The checks are sound as long
as every direct link owns its own route, the registry is consistent and none of our own UIDs
is bound to a remote user. -/

namespace Ferrixd

structure Tables.LinkInvariant (info : ServerInfo) (t : Tables) : Prop where
  sameInfo : t.info = info
  registry : t.RegistryConsistent
  linkRouted : ∀ sid ∈ t.links, t.routeOwner sid = some sid
  ownUnbound : ∀ uid, t.ownsLocalUid uid = true → t.remoteByUid.lookup uid = none

namespace Tables

/-- Whether an introduction of this UID at this nick is stored. -/
def takes (t : Tables) (folded uid : String) : Bool :=
  t.outranks folded uid || t.refreshes folded uid

namespace LinkInvariant

variable {info : ServerInfo}

/-- The registry and the topology are all that matters. -/
theorem of_same {t t' : Tables} (inv : t.LinkInvariant info) (topology : t'.toTopology = t.toTopology)
    (registry : t'.toRegistry = t.toRegistry) (same : t'.info = t.info) : t'.LinkInvariant info := by
  constructor
  · rw [same, inv.sameInfo]
  · exact inv.registry.of_same registry same
  · intro sid linked
    rw [topology] at linked
    rw [routeOwner, topology]
    exact inv.linkRouted sid linked
  · intro uid own
    rw [ownsLocalUid, localIdOfUid, same] at own
    rw [registry]
    exact inv.ownUnbound uid own

/-- Fewer users. -/
theorem departed {t : Tables} (inv : t.LinkInvariant info) (uid : String) : (t.departed uid).LinkInvariant info := by
  refine ⟨inv.sameInfo, inv.registry.departed uid, inv.linkRouted, fun own isOwn => ?_⟩
  show (t.toRegistry.remoteRemoveByUid uid).remoteByUid.lookup own = none
  rw [Registry.remoteRemoveByUid]
  split
  · exact inv.ownUnbound own isOwn
  · show (t.remoteByUid.erase uid).lookup own = none
    rw [Table.lookup_erase_if, inv.ownUnbound own isOwn, ite_self]

theorem departedAll {t : Tables} (inv : t.LinkInvariant info) (uids : List String) :
    (t.departedAll uids).LinkInvariant info :=
  foldl_invariant (I := LinkInvariant info) Tables.departed uids (fun _ uid _ holds => holds.departed uid) t inv

/-- Another topology in which every direct link owns its own route. -/
theorem topology {t : Tables} (inv : t.LinkInvariant info) {topology : Topology}
    (linkRouted : ∀ sid ∈ topology.links, topology.remoteRoutes.lookup sid = some sid) :
    { t with toTopology := topology }.LinkInvariant info :=
  ⟨inv.sameInfo, inv.registry.of_same rfl rfl, linkRouted, inv.ownUnbound⟩

theorem updated {t : Tables} (inv : t.LinkInvariant info) (uid : String) {change : RemoteUser → RemoteUser}
    (keepsKeys : ∀ user, (change user).uid = user.uid ∧ (change user).nick = user.nick) :
    { t with toRegistry := t.toRegistry.update uid change }.LinkInvariant info := by
  refine ⟨inv.sameInfo, Registry.Consistent.update inv.registry keepsKeys, inv.linkRouted, fun own isOwn => ?_⟩
  show (t.toRegistry.update uid change).remoteByUid.lookup own = none
  rw [Registry.update]
  split <;> exact inv.ownUnbound own isOwn

/-- Filing a user under a UID that is not ours. -/
theorem ownUnbound_inserted {t : Tables} (inv : t.LinkInvariant info) (registry : Registry) {folded : String}
    {user : RemoteUser} (index : registry.remoteByUid = t.remoteByUid) (foreign : t.ownsLocalUid user.uid = false)
    {uid : String} (own : t.ownsLocalUid uid = true) :
    (registry.remoteInsert folded user).remoteByUid.lookup uid = none := by
  have different : uid ≠ user.uid := by
    intro same
    rw [same, foreign] at own
    cases own
  rw [Registry.lookup_index_insert _ _ different, index, inv.ownUnbound uid own, ite_self]

theorem ownUnbound_renamed {t : Tables} (inv : t.LinkInvariant info) (newNick : String) {uid : String}
    {old : RemoteUser} (foreign : t.ownsLocalUid old.uid = false) {own : String}
    (isOwn : t.ownsLocalUid own = true) : (t.renamed uid newNick old).remoteByUid.lookup own = none := by
  have user : t.ownsLocalUid ({ old with nick := newNick } : RemoteUser).uid = false := foreign
  exact inv.ownUnbound_inserted ⟨t.remoteUsers.erase (t.fold old.nick), t.remoteByUid⟩ rfl user isOwn

end LinkInvariant

end Tables

namespace Server

variable {info : ServerInfo}

/-! ## Users -/

theorem acceptRemoteUser_linkInvariant {s : Server} (inv : s.LinkInvariant info) {user : RemoteUser}
    (keeps : s.KeepsUidNick user)
    (foreign : s.takes (s.fold user.nick) user.uid = true → s.ownsLocalUid user.uid = false) :
    (s.acceptRemoteUser user).1.LinkInvariant info := by
  have registry := (acceptRemoteUser_consistent_iff inv.registry user).mpr keeps
  by_cases wins : s.outranks (s.fold user.nick) user.uid = true
  · obtain ⟨-, tables⟩ := acceptRemoteUser_wins wins
    have notOurs := foreign (by rw [Tables.takes, wins, Bool.true_or])
    have same := s.toTables.vacate_toTopology (s.fold user.nick)
    have sameInfo := (Tables.RegistryConsistent.vacate_same s.toTables (s.fold user.nick)).2
    rw [tables] at registry ⊢
    refine ⟨sameInfo.trans inv.sameInfo, registry, ?_, ?_⟩
    · show ∀ sid ∈ (s.toTables.vacate (s.fold user.nick)).links, _
      rw [same]
      intro sid linked
      show (s.toTables.vacate (s.fold user.nick)).remoteRoutes.lookup sid = some sid
      rw [same]
      exact inv.linkRouted sid linked
    · intro uid own
      have ours : s.ownsLocalUid uid = true := by
        rw [← own, Tables.ownsLocalUid, Tables.ownsLocalUid, Tables.localIdOfUid, Tables.localIdOfUid]
        show _ = ((stripLead? uid (s.toTables.vacate (s.fold user.nick)).info.sid).bind parseU64).isSome
        rw [sameInfo]
      exact inv.ownUnbound_inserted s.toRegistry rfl notOurs ours
  -- a loser that is not refreshed leaves no trace
  have loses : s.outranks (s.fold user.nick) user.uid = false := by simpa using wins
  by_cases refreshes : s.refreshes (s.fold user.nick) user.uid = true
  · have notOurs := foreign (by rw [Tables.takes, refreshes, Bool.or_true])
    rw [acceptRemoteUser_refresh refreshes] at registry ⊢
    exact ⟨inv.sameInfo, registry, inv.linkRouted, fun uid own => inv.ownUnbound_inserted s.toRegistry rfl notOurs own⟩
  · rw [acceptRemoteUser_loses (by simpa using refreshes) loses]
    exact inv

theorem remoteNickChange_linkInvariant {s : Server} (inv : s.LinkInvariant info) (uid newNick : String) :
    (s.remoteNickChange uid newNick).1.LinkInvariant info := by
  have registry := remoteNickChange_consistent inv.registry uid newNick
  cases found : s.remoteUserByUid uid with
  | none => simpa only [remoteNickChange, found] using inv
  | some old =>
    -- a known UID is not ours
    have foreign : s.ownsLocalUid old.uid = false := by
      rw [(inv.registry.known found).1, ← Bool.not_eq_true]
      intro own
      rw [Tables.remoteUserByUid, inv.ownUnbound uid own] at found
      cases found
    by_cases unchanged : old.nick = newNick
    · simpa only [remoteNickChange, found, if_pos unchanged] using inv
    by_cases sameFold : s.fold newNick = s.fold old.nick
    · rw [remoteNickChange_case found unchanged sameFold, applyNickChange_toTables] at registry ⊢
      exact ⟨inv.sameInfo, registry, inv.linkRouted, fun own isOwn => inv.ownUnbound_renamed newNick foreign isOwn⟩
    by_cases wins : s.outranks (s.fold newNick) uid = true
    · rw [(remoteNickChange_wins found sameFold wins).2] at registry ⊢
      have same := s.toTables.vacate_toTopology (s.fold newNick)
      obtain ⟨sameRegistry, sameInfo⟩ := Tables.RegistryConsistent.vacate_same s.toTables (s.fold newNick)
      have vacated := inv.of_same same sameRegistry sameInfo
      refine ⟨vacated.sameInfo, registry, vacated.linkRouted, fun own isOwn => ?_⟩
      refine vacated.ownUnbound_renamed newNick ?_ isOwn
      rw [Tables.ownsLocalUid, Tables.localIdOfUid, sameInfo]
      exact foreign
    · rw [remoteNickChange_loses found sameFold (by simpa using wins), dropLosingChanger_toTables]
      exact inv.departed uid

theorem remoteQuit_linkInvariant {s : Server} (inv : s.LinkInvariant info) (uid reason : String) :
    (s.remoteQuit uid reason).LinkInvariant info := by
  rw [remoteQuit_toTables]
  exact inv.departed uid

theorem killByUid_linkInvariant {s : Server} (inv : s.LinkInvariant info) (uid reason : String) :
    (s.killByUid uid reason).LinkInvariant info := by
  rw [killByUid]
  cases s.localIdOfUid uid with
  | none => exact remoteQuit_linkInvariant inv uid reason
  | some id =>
    show Tables.LinkInvariant info (if id ∈ s.byId then s.requestKill id reason else s).toTables
    split
    · exact inv.of_same rfl rfl rfl
    · exact inv

/-! ## Servers -/

theorem routeAuthorize_linkInvariant {s : Server} (inv : s.LinkInvariant info) (peerSid sid : String) :
    (s.routeAuthorize peerSid sid).1.LinkInvariant info := by
  obtain ⟨refused, -⟩ | ⟨owned, -, -⟩ | ⟨claimed, -, vacant⟩ := routeAuthorize_cases s peerSid sid
  · rw [refused]
    exact inv
  · rw [owned]
    exact inv
  · rw [claimed]
    refine inv.topology fun link linked => ?_
    show (s.remoteRoutes.insert sid peerSid).lookup link = some link
    have different : ¬ link = sid := by
      intro same
      have routed := inv.linkRouted link linked
      rw [same, Tables.routeOwner, vacant] at routed
      cases routed
    rw [Table.lookup_insert_if, if_neg different]
    exact inv.linkRouted link linked

theorem tryRegisterLink_linkInvariant {s s' : Server} (inv : s.LinkInvariant info) {handle : LinkHandle}
    (registered : s.tryRegisterLink handle = .ok s') : s'.LinkInvariant info := by
  obtain ⟨-, -, -, rfl⟩ := tryRegisterLink_ok registered
  refine inv.topology fun link linked => ?_
  show (s.remoteRoutes.insert handle.sid handle.sid).lookup link = some link
  rw [Table.lookup_insert_if]
  split
  · rename_i same
    rw [same]
  · rename_i other
    exact inv.linkRouted link ((AList.mem_insert _).mp linked |>.resolve_left other)

theorem acceptRemoteServer_linkInvariant {s s' : Server} (inv : s.LinkInvariant info) {peerSid : String}
    {server : RemoteServer} (accepted : s.acceptRemoteServer peerSid server = .ok s') : s'.LinkInvariant info := by
  obtain ⟨-, -, -, rfl⟩ := acceptRemoteServer_ok accepted
  have routed := routeAuthorize_linkInvariant inv peerSid server.sid
  exact ⟨routed.sameInfo, routed.registry.of_same rfl rfl, routed.linkRouted, routed.ownUnbound⟩

/-- A split must leave the routes of the direct links alone. -/
theorem splitRemoteServer_linkInvariant {s : Server} (inv : s.LinkInvariant info) {sid : String}
    (noLink : ∀ link ∈ s.links, link ∉ s.uplinkSubtree sid) (reason : String) :
    (s.splitRemoteServer sid reason).LinkInvariant info := by
  rw [splitRemoteServer_toTables, Tables.splitOff]
  refine Tables.LinkInvariant.departedAll ?_ _
  refine inv.topology fun link linked => ?_
  have routed : s.remoteRoutes.lookup link = some link := inv.linkRouted link linked
  rw [Topology.without, Table.lookup_retain, routed]
  simp [Option.filter, noLink link linked]

theorem dropLink_linkInvariant {s : Server} (inv : s.LinkInvariant info) (sid : String) :
    (s.dropLink sid).LinkInvariant info := by
  rw [dropLink_toTables, Tables.linkDropped]
  refine Tables.LinkInvariant.departedAll ?_ _
  refine inv.topology fun link linked => ?_
  obtain ⟨other, stays⟩ := AList.mem_erase.mp linked
  have routed : s.remoteRoutes.lookup link = some link := inv.linkRouted link stays
  rw [Topology.unlinked, Table.lookup_retain, routed]
  simp [Option.filter, other]

end Server

end Ferrixd
