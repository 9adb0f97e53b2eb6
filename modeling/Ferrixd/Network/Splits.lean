import Mathlib.Combinatorics.SimpleGraph.Hasse
import Ferrixd.Data.Multicast
import Ferrixd.Invariant.Membership
import Ferrixd.Network.Links

/-! # A link is lost

The two servers at the ends of a lost link forget whatever they route over it, and tell the others on
their side, who forget the lost server and what they know behind it.  Routes and recorded uplinks are
two ways to tell what is lost; on a forest they are the same. -/

namespace Ferrixd

universe u

/-! ## What one server forgets -/

/-- The tables after everything about some servers was forgotten: the servers, their users and the users' memberships. -/
structure Parted (t t' : Tables) (lost : String → Prop) : Prop where
  info : t'.info = t.info
  locals : t'.toLocals = t.toLocals
  routes : ∀ sid owner, t'.remoteRoutes.lookup sid = some owner ↔
    t.remoteRoutes.lookup sid = some owner ∧ ¬ lost sid
  servers : ∀ sid server, t'.remoteServers.lookup sid = some server ↔
    t.remoteServers.lookup sid = some server ∧ ¬ lost sid
  users : ∀ uid user, t'.remoteUserByUid uid = some user ↔
    t.remoteUserByUid uid = some user ∧ ¬ lost user.serverSid
  members : ∀ folded uid who, memberAt t'.channels folded uid = some who ↔
    memberAt t.channels folded uid = some who ∧ ¬ lost who.serverSid
  registry : t'.RegistryConsistent
  membership : MembershipConsistent t'

theorem Parted.refl {t : Tables} (registry : t.RegistryConsistent) (membership : MembershipConsistent t)
    {lost : String → Prop} (none : ∀ sid, ¬ lost sid) : Parted t t lost := by
  constructor <;> simp [none, registry, membership]

namespace Tables

theorem remoteUserByUid_departedAll {t : Tables} (registry : t.RegistryConsistent) (uids : List String) (uid : String)
    (user : RemoteUser) : (t.departedAll uids).remoteUserByUid uid = some user ↔
      t.remoteUserByUid uid = some user ∧ uid ∉ uids := by
  induction uids generalizing t with
  | nil => simp [departedAll]
  | cons first rest ih =>
    rw [departedAll, List.foldl_cons]
    refine (ih (registry.departed first)).trans ?_
    rw [registry.remoteUserByUid_departed]
    by_cases same : uid = first <;> simp [same]

theorem memberAt_departedAll {t : Tables} (registry : t.RegistryConsistent) (membership : MembershipConsistent t)
    (uids : List String) (folded uid : String) (who : Identity) :
    memberAt (t.departedAll uids).channels folded uid = some who ↔
      memberAt t.channels folded uid = some who ∧ uid ∉ uids := by
  induction uids generalizing t with
  | nil => simp [departedAll]
  | cons first rest ih =>
    rw [departedAll, List.foldl_cons]
    refine (ih (registry.departed first) (membership.departed registry first)).trans ?_
    rw [show (t.departed first).channels = (t.purged first).channels from rfl, membership.memberAt_purged]
    by_cases same : uid = first <;> simp [same]

theorem mem_uidsBehind_iff {t : Tables} (registry : t.RegistryConsistent) {split : List String} {uid : String} :
    uid ∈ t.uidsBehind split ↔ ∃ user, t.remoteUserByUid uid = some user ∧ user.serverSid ∈ split := by
  rw [mem_uidsBehind]
  constructor
  · rintro ⟨folded, user, stored, inside, rfl⟩
    exact ⟨user, registry.remoteUserByUid_of_nick stored, inside⟩
  · rintro ⟨user, known, inside⟩
    obtain ⟨own, stored⟩ := registry.known known
    exact ⟨_, user, stored, inside, own⟩

/-- A server that forgets the servers in a list loses their users and the memberships of these. -/
theorem parted_departedAll {t : Tables} (registry : t.RegistryConsistent) (membership : MembershipConsistent t)
    {topology : Topology} {split : List String} {lost : String → Prop} (listed : ∀ sid, sid ∈ split ↔ lost sid)
    (routes : ∀ sid owner, topology.remoteRoutes.lookup sid = some owner ↔
      t.remoteRoutes.lookup sid = some owner ∧ ¬ lost sid)
    (servers : ∀ sid server, topology.remoteServers.lookup sid = some server ↔
      t.remoteServers.lookup sid = some server ∧ ¬ lost sid) :
    Parted t ({ t with toTopology := topology }.departedAll (t.uidsBehind split)) lost := by
  have registry' : ({ t with toTopology := topology } : Tables).RegistryConsistent := registry.of_same rfl rfl
  have membership' : MembershipConsistent { t with toTopology := topology } := ⟨membership.indexed, membership.current⟩
  obtain ⟨sameTopology, info⟩ := departedAll_toTopology { t with toTopology := topology } (t.uidsBehind split)
  constructor
  case info => exact info
  case locals => exact departedAll_toLocals _ _
  case routes => rw [sameTopology]; exact routes
  case servers => rw [sameTopology]; exact servers
  case users =>
    intro uid user
    refine (remoteUserByUid_departedAll registry' _ uid user).trans (and_congr_right fun known => not_congr ?_)
    rw [mem_uidsBehind_iff registry, ← listed]
    constructor
    · rintro ⟨other, known', inside⟩
      rwa [Option.some.inj (known.symm.trans known')]
    · exact fun inside => ⟨user, known, inside⟩
  case members =>
    intro folded uid who
    refine (memberAt_departedAll registry' membership' _ folded uid who).trans (and_congr_right fun found => not_congr ?_)
    obtain ⟨user, known, identity⟩ := membership.current folded uid who found
    rw [mem_uidsBehind_iff registry, ← listed, ← identity]
    constructor
    · rintro ⟨other, known', inside⟩
      rwa [Option.some.inj (known.symm.trans known')]
    · exact fun inside => ⟨user, known, inside⟩
  case registry => exact registry'.departedAll _
  case membership => exact membership'.departedAll registry' _

theorem splitOff_parted {t : Tables} (registry : t.RegistryConsistent) (membership : MembershipConsistent t)
    {split : List String} {lost : String → Prop} (listed : ∀ sid, sid ∈ split ↔ lost sid) :
    Parted t (t.splitOff split) lost := by
  refine parted_departedAll registry membership listed ?_ ?_
  · intro sid owner
    rw [Topology.without, Table.lookup_retain, Option.filter_eq_some_iff, decide_eq_true_eq, listed]
  · intro sid server
    rw [Topology.without, Table.lookup_retain, Option.filter_eq_some_iff, decide_eq_true_eq, listed]

theorem linkDropped_parted {t : Tables} (registry : t.RegistryConsistent) (membership : MembershipConsistent t)
    {peerSid : String} (own : t.remoteRoutes.lookup peerSid = some peerSid) {lost : String → Prop}
    (listed : ∀ sid, t.remoteRoutes.lookup sid = some peerSid ↔ lost sid) :
    Parted t (t.linkDropped peerSid) lost := by
  have behind (sid : String) : sid ∈ peerSid :: t.routedBehind peerSid ↔ lost sid := by
    rw [List.mem_cons, Topology.mem_routedBehind, listed, or_iff_right_iff_imp]
    rintro rfl
    exact (listed sid).mp own
  refine parted_departedAll registry membership behind ?_ ?_
  · intro sid owner
    rw [Topology.unlinked, Table.lookup_retain, Option.filter_eq_some_iff, ← listed]
    refine and_congr_right fun found => ?_
    rw [found]
    simp
  · intro sid server
    rw [Topology.unlinked, Table.lookup_retain, Option.filter_eq_some_iff, decide_eq_true_eq, ← behind, List.mem_cons,
      not_or]
    exact and_congr_right fun _ => and_comm

end Tables

/-! ## What lies behind a link -/

namespace Network

variable {V : Type} {n : Network V} {graph : SimpleGraph V}

/-- Every server knows the servers further away, each with the next server on the way back as its uplink. -/
structure Mapped (n : Network V) (graph : SimpleGraph V) : Prop extends n.Routed graph where
  known : ∀ v w far, Behind graph v w far → far ≠ w → n.sid far ∈ (n.server v).remoteServers
  recorded : ∀ v sid server, (n.server v).remoteServers.lookup sid = some server →
    ∃ far, n.sid far = sid ∧ server.sid = sid ∧ ∃ w, Behind graph v w far ∧ far ≠ w ∧
      ∃ back, Behind graph far back v ∧ server.uplink = n.sid back

/-- What is lost on one side of a link is the part on the other side. -/
def Lost (n : Network V) (graph : SimpleGraph V) (kept gone : V) (sid : String) : Prop :=
  ∃ far, (cutEdge graph kept gone).Reachable gone far ∧ n.sid far = sid

section Lost

variable {kept gone : V} (acyclic : graph.IsAcyclic) (edge : graph.Adj kept gone)
include acyclic edge

theorem lost_iff_routed (routed : n.Routed graph) (sid : String) :
    (n.server kept).remoteRoutes.lookup sid = some (n.sid gone) ↔ n.Lost graph kept gone sid := by
  rw [routed.routes]
  constructor
  · rintro ⟨w, far, behind, rfl, same⟩
    rw [routed.sids _ _ same] at behind
    exact ⟨far, (behind_edge_iff acyclic edge).mp behind, rfl⟩
  · rintro ⟨far, reachable, rfl⟩
    exact ⟨gone, far, (behind_edge_iff acyclic edge).mpr reachable, rfl, rfl⟩

/-- The servers that have the lost server as an uplink are those on its side of the link. -/
theorem mem_uplinkSubtree_iff_lost (mapped : n.Mapped graph) {v : V} (side : (cutEdge graph kept gone).Reachable kept v)
    (apart : v ≠ kept) (sid : String) :
    sid ∈ (n.server v).uplinkSubtree (n.sid gone) ↔ n.Lost graph kept gone sid := by
  rw [Tables.mem_uplinkSubtree]
  constructor
  · intro steps
    induction steps with
    | refl => exact ⟨gone, .refl _, rfl⟩
    | tail _ step ih =>
      obtain ⟨near, reachable, rfl⟩ := ih
      obtain ⟨server, isServer, uplink, rfl⟩ := step
      obtain ⟨key, found⟩ := Table.mem_values_iff.mp isServer
      obtain ⟨far, rfl, own, w, -, -, back, behind, recorded⟩ := mapped.recorded v key server found
      have same : back = near := mapped.sids _ _ (recorded.symm.trans uplink)
      subst same
      refine ⟨far, ?_, own.symm⟩
      -- the step back from `far` is not the one over the link
      have within : (cutEdge graph kept gone).Adj far back := by
        rw [cutEdge_adj]
        refine ⟨behind.adj, ?_⟩
        rintro (⟨rfl, rfl⟩ | ⟨rfl, rfl⟩)
        · have lost := (behind_edge_iff acyclic edge).mp behind
          exact cut_apart acyclic edge (side.trans lost.symm)
        · exact cut_apart acyclic edge reachable.symm
      exact reachable.trans within.reachable.symm
  · rintro ⟨far, reachable, rfl⟩
    have cutAcyclic : (cutEdge graph kept gone).IsAcyclic := cutEdge_acyclic acyclic
    -- by induction on the way from the lost server
    induction steps : graph.dist far gone using Nat.strong_induction_on generalizing far with
    | h distance ih =>
      by_cases arrived : far = gone
      · rw [arrived]
      · obtain ⟨near, within⟩ := exists_behind reachable.symm (Ne.symm arrived)
        have closer := within.of_cut.closer acyclic
        have nearer := ih _ (steps ▸ closer) near (reachable.trans within.adj.reachable) rfl
        refine nearer.tail ?_
        have back : Behind graph far near v := (behind_over_iff acyclic edge reachable side).mpr (.inr within)
        -- `far` is no neighbour of `v`, and so recorded with its uplink
        obtain ⟨w, behind⟩ := exists_behind back.reachable.symm back.ne.symm
        have further : far ≠ w := by
          rintro rfl
          have direct : (cutEdge graph kept gone).Adj v far := by
            rw [cutEdge_adj]
            refine ⟨behind.adj, ?_⟩
            rintro (⟨same, -⟩ | ⟨-, same⟩)
            · exact apart same
            · rw [same] at reachable
              exact cut_apart acyclic edge reachable.symm
          exact cut_apart acyclic edge ((side.trans direct.reachable).trans reachable.symm)
        obtain ⟨server, found⟩ := Option.isSome_iff_exists.mp (AList.lookup_isSome.mpr (mapped.known v w far behind further))
        obtain ⟨place, same, own, -, -, -, next, behind', uplink⟩ := mapped.recorded v _ server found
        have here := mapped.sids _ _ same
        subst here
        refine ⟨server, Table.mem_values_iff.mpr ⟨_, found⟩, ?_, own⟩
        rw [uplink, behind'.unique acyclic back]

end Lost

/-! ## The flood on one side -/

/-- Where the news of a lost link is on one side of it, when it has arrived along some links. -/
structure Losing (first n : Network V) (graph : SimpleGraph V) (kept gone : V) (arrived : List (V × V)) : Prop where
  spread : Spread (cutEdge graph kept gone) (fun _ => True) kept arrived
  told : ∀ v, v = kept ∨ (∃ before, (before, v) ∈ arrived) →
    Parted (first.server v).toTables (n.server v).toTables (first.Lost graph kept gone)
  linked : ∀ v, (cutEdge graph kept gone).Reachable kept v → ∀ sid, sid ∈ (n.server v).links ↔
    ∃ w, (cutEdge graph kept gone).Adj v w ∧ first.sid w = sid
  untold : ∀ v, (cutEdge graph kept gone).Reachable kept v → v ≠ kept → (∀ before, (before, v) ∉ arrived) →
    n.node v = first.node v
  pending : ∀ here next, Copied (cutEdge graph kept gone) (fun _ => True) kept arrived here next →
    (here, next) ∉ arrived → n.wire here next = [.squit (first.sid gone) splitReason]
  idle : ∀ here, (cutEdge graph kept gone).Reachable kept here → ∀ next,
    (Copied (cutEdge graph kept gone) (fun _ => True) kept arrived here next → (here, next) ∈ arrived) →
    n.wire here next = []

/-- What a server makes of the news. -/
theorem receive_squit {s : Server} {peerSid sid reason : String} (other : sid ≠ peerSid)
    (routed : s.remoteRoutes.lookup sid = some peerSid) : s.receive peerSid (.squit sid reason) =
      (s.splitRemoteServer sid splitReason).forwardToLinks peerSid (.squit sid reason) := by
  simp only [Server.receive, Server.handle, if_neg other, Tables.routeOwner, routed, if_true]

/-- The other peers are told of a dropped link. -/
theorem dropLink_sentTo (s : Server) (sid peerSid : String) : (s.dropLink sid).sentTo peerSid =
    s.sentTo peerSid ++ if peerSid ∈ s.links.erase sid then [.squit sid splitReason] else [] := by
  rw [Server.dropLink, Server.sentTo_propagateToLinks, Server.quitAll_toTables, (Tables.departedAll_toTopology _ _).1,
    Server.sentTo_of_frames (Server.quitAll_frames _ _ _)]
  rfl

theorem splitRemoteServer_links (s : Server) (sid reason : String) :
    (s.splitRemoteServer sid reason).links = s.links := by
  rw [Server.splitRemoteServer_toTables, Tables.splitOff, (Tables.departedAll_toTopology _ _).1]
  rfl

section Flood

variable [DecidableEq V] {first n' : Network V} {kept gone : V} {arrived : List (V × V)}
  (acyclic : graph.IsAcyclic) (edge : graph.Adj kept gone) (mapped : first.Mapped graph)
  (registries : ∀ v, (first.server v).RegistryConsistent) (memberships : ∀ v, MembershipConsistent (first.server v).toTables)
  (fits : ∀ v, (LinkMessage.squit (first.sid v) splitReason).Fits)

theorem Losing.sid (losing : Losing first n graph kept gone arrived) {v : V}
    (side : (cutEdge graph kept gone).Reachable kept v) : n.sid v = first.sid v := by
  by_cases heard : v = kept ∨ ∃ before, (before, v) ∈ arrived
  · exact congrArg ServerInfo.sid (losing.told v heard).info
  · rw [not_or, not_exists] at heard
    rw [Network.sid, server, losing.untold v side heard.1 heard.2]

include fits in
/-- What arrives on a side is news that had not arrived yet. -/
theorem Losing.delivers (losing : Losing first n graph kept gone arrived) {here next : V}
    (side : (cutEdge graph kept gone).Reachable kept here) (delivered : n.deliver here next = some n') :
    Copied (cutEdge graph kept gone) (fun _ => True) kept arrived here next ∧ (here, next) ∉ arrived ∧
      n.Delivers n' here next (.squit (first.sid gone) splitReason) [] := by
  obtain ⟨message, rest, head, arrives⟩ := deliver_some delivered
  have waiting : Copied (cutEdge graph kept gone) (fun _ => True) kept arrived here next ∧ (here, next) ∉ arrived := by
    by_contra none
    have empty := losing.idle here side next fun copied => by_contra fun missing => none ⟨copied, missing⟩
    rw [head] at empty
    cases empty
  have onWire := losing.pending here next waiting.1 waiting.2
  rw [head, List.cons.injEq] at onWire
  obtain ⟨rfl, rfl⟩ := onWire
  exact ⟨waiting.1, waiting.2, arrives (fits gone)⟩

include acyclic edge mapped registries memberships fits in
/-- The news arrives: the server forgets what is lost, and passes the news on. -/
theorem Losing.deliver (losing : Losing first n graph kept gone arrived) (flushed : n.Flushed)
    (sids : ∀ v, n.sid v = first.sid v) {here next : V} (side : (cutEdge graph kept gone).Reachable kept here)
    (delivered : n.deliver here next = some n') :
    Losing first n' graph kept gone (arrived ++ [(here, next)]) := by
  obtain ⟨copied, missing, delivers⟩ := losing.delivers fits side delivered
  have cutAcyclic : (cutEdge graph kept gone).IsAcyclic := cutEdge_acyclic acyclic
  have outward := losing.spread.copied_outward cutAcyclic copied
  have apart : here ≠ next := outward.adj.ne'
  have sideNext : (cutEdge graph kept gone).Reachable kept next := outward.reachable.symm
  have notKept : next ≠ kept := outward.ne.symm
  have same := losing.untold next sideNext notKept (losing.spread.unheard cutAcyclic copied missing)
  -- the lost server was routed over the sender of the news
  have routed : (first.server next).remoteRoutes.lookup (first.sid gone) = some (first.sid here) := by
    refine mapped.lookup_iff.mpr ?_
    have swapped := cutEdge_comm graph kept gone
    rw [swapped] at sideNext outward
    exact (behind_over_iff acyclic edge.symm sideNext (.refl gone)).mpr (.inr outward)
  have other : first.sid gone ≠ first.sid here := by
    intro clash
    rw [← mapped.sids _ _ clash] at side
    exact cut_apart acyclic edge side
  have sameServer : n.server next = first.server next := congrArg Node.server same
  have received : (n.server next).receive (n.sid here) (.squit (first.sid gone) splitReason) =
      ((first.server next).splitRemoteServer (first.sid gone) splitReason).forwardToLinks (first.sid here)
        (.squit (first.sid gone) splitReason) := by
    rw [sameServer, sids]
    exact receive_squit other routed
  have tables : (n'.server next).toTables =
      (first.server next).splitOff ((first.server next).uplinkSubtree (first.sid gone)) := by
    rw [delivers.server, received]
    exact Server.splitRemoteServer_toTables _ _ _
  have links : (n'.server next).links = (n.server next).links := by
    rw [delivers.server, received, sameServer]
    exact splitRemoteServer_links _ _ _
  have passedOn (far : V) : n'.wire next far =
      if first.sid far ∈ (n.server next).links ∧ first.sid far ≠ first.sid here then
        [.squit (first.sid gone) splitReason] else [] := by
    have silent := losing.idle next sideNext far fun earlier =>
      absurd earlier (losing.spread.silent cutAcyclic copied missing far)
    have empty : ((first.server next).splitRemoteServer (first.sid gone) splitReason).sentTo (n.sid far) = [] := by
      rw [Server.sentTo, Server.splitRemoteServer_frames, ← sameServer, flushed next]
      rfl
    rw [delivers.sent far (fun both => apart both.1.symm), silent, received, Server.sentTo_forwardToLinks, empty,
      splitRemoteServer_links, ← sameServer, sids]
    rfl
  have onward (far : V) : (first.sid far ∈ (n.server next).links ∧ first.sid far ≠ first.sid here) ↔
      (cutEdge graph kept gone).Adj next far ∧ far ≠ here := by
    rw [losing.linked next sideNext]
    constructor
    · rintro ⟨⟨w, adj, place⟩, distinct⟩
      rw [mapped.sids _ _ place] at adj
      exact ⟨adj, fun back => distinct (by rw [back])⟩
    · rintro ⟨adj, distinct⟩
      exact ⟨⟨far, adj, rfl⟩, fun clash => distinct (mapped.sids _ _ clash)⟩
  constructor
  case spread => exact losing.spread.arrive cutAcyclic copied missing
  case told =>
    intro v heard
    by_cases isHere : v = next
    · subst isHere
      rw [tables]
      exact Tables.splitOff_parted (registries v) (memberships v)
        (mem_uplinkSubtree_iff_lost acyclic edge mapped sideNext notKept)
    · rw [show n'.server v = n.server v from congrArg Node.server (delivers.others v isHere)]
      refine losing.told v (heard.imp_right ?_)
      rintro ⟨before, isArrived⟩
      rw [List.mem_append, List.mem_singleton] at isArrived
      exact ⟨before, isArrived.resolve_right fun now => isHere (Prod.mk.inj now).2⟩
  case linked =>
    intro v sideV
    by_cases isHere : v = next
    · subst isHere
      rw [links]
      exact losing.linked v sideV
    · rw [server, delivers.others v isHere]
      exact losing.linked v sideV
  case untold =>
    intro v sideV notOwn unheard
    have isHere : v ≠ next := by
      rintro rfl
      exact unheard here (by simp)
    rw [delivers.others v isHere]
    exact losing.untold v sideV notOwn fun before isArrived => unheard before (List.mem_append_left _ isArrived)
  case pending =>
    intro sender receiver copied' missing'
    rw [List.mem_append, List.mem_singleton, not_or] at missing'
    by_cases isNext : sender = next
    · subst isNext
      have fresh := (copied_arrive_iff.mp copied').resolve_left
        (losing.spread.silent cutAcyclic copied missing receiver)
      rw [passedOn, if_pos ((onward receiver).mpr ⟨fresh.2.2.adj, fresh.2.1⟩)]
    · have earlier := (copied_arrive_iff.mp copied').resolve_right fun now => isNext now.1
      rw [delivers.untouched sender receiver isNext fun both => missing'.2 (by rw [both.1, both.2])]
      exact losing.pending sender receiver earlier missing'.1
  case idle =>
    intro sender sideS receiver done
    by_cases isNext : sender = next
    · subst isNext
      rw [passedOn, if_neg]
      intro wanted
      obtain ⟨adj, distinct⟩ := (onward receiver).mp wanted
      have arrivedNow := done (copied_arrive_iff.mpr (.inr ⟨rfl, distinct, receiver, trivial, behind_self adj⟩))
      rw [List.mem_append, List.mem_singleton] at arrivedNow
      obtain before | now := arrivedNow
      · exact losing.spread.silent cutAcyclic copied missing receiver (losing.spread.copied _ _ before)
      · exact apart (Prod.mk.inj now).1.symm
    · by_cases along : sender = here ∧ receiver = next
      · rw [along.1, along.2]
        exact delivers.taken apart
      · rw [delivers.untouched sender receiver isNext along]
        refine losing.idle sender sideS receiver fun earlier => ?_
        have arrivedNow := done (earlier.more _)
        rw [List.mem_append, List.mem_singleton] at arrivedNow
        exact arrivedNow.resolve_right fun now => along (Prod.mk.inj now)

end Flood

/-! ## Both sides -/

/-- Part of the network is as it was, and nothing is on its way there. -/
def Untouched (first n : Network V) (part : V → Prop) : Prop :=
  ∀ v, part v → n.node v = first.node v ∧ ∀ next, n.wire v next = []

/-- Two networks agree on a part. -/
def SameOn (n n' : Network V) (part : V → Prop) : Prop :=
  ∀ v, part v → n'.node v = n.node v ∧ ∀ next, n'.wire v next = n.wire v next

/-- The servers on one side of a link. -/
def OnSide (graph : SimpleGraph V) (kept gone v : V) : Prop :=
  (cutEdge graph kept gone).Reachable kept v

/-- One side of a link: as it was, or on its way to forget the other side. -/
inductive Side (first n : Network V) (graph : SimpleGraph V) (kept gone : V) (dropped : Prop) : Prop where
  | waiting (still : ¬ dropped) (same : Untouched first n (OnSide graph kept gone))
  | losing (did : dropped) (arrived : List (V × V)) (state : Losing first n graph kept gone arrived)

theorem Untouched.of_same {first n n' : Network V} {part : V → Prop} (untouched : Untouched first n part)
    (same : SameOn n n' part) : Untouched first n' part := by
  intro v inside
  obtain ⟨node, wires⟩ := same v inside
  obtain ⟨node', wires'⟩ := untouched v inside
  exact ⟨node.trans node', fun next => (wires next).trans (wires' next)⟩

theorem Losing.of_same {first n n' : Network V} {kept gone : V} {arrived : List (V × V)}
    (losing : Losing first n graph kept gone arrived) (same : SameOn n n' (OnSide graph kept gone)) :
    Losing first n' graph kept gone arrived := by
  have reached (v : V) (heard : v = kept ∨ ∃ before, (before, v) ∈ arrived) : OnSide graph kept gone v := by
    obtain rfl | ⟨before, isArrived⟩ := heard
    · exact .refl v
    · exact (losing.spread.outward before v isArrived).reachable.symm
  constructor
  case spread => exact losing.spread
  case told =>
    intro v heard
    rw [show n'.server v = n.server v from congrArg Node.server (same v (reached v heard)).1]
    exact losing.told v heard
  case linked =>
    intro v side
    rw [show n'.server v = n.server v from congrArg Node.server (same v side).1]
    exact losing.linked v side
  case untold =>
    intro v side apart unheard
    exact (same v side).1.trans (losing.untold v side apart unheard)
  case pending =>
    intro here next copied missing
    have side := reached here (copied.2.imp_right fun ⟨before, isArrived, _⟩ => ⟨before, isArrived⟩)
    exact ((same here side).2 next).trans (losing.pending here next copied missing)
  case idle =>
    intro here side next done
    exact ((same here side).2 next).trans (losing.idle here side next done)

theorem Side.of_same {first n n' : Network V} {kept gone : V} {dropped dropped' : Prop}
    (side : Side first n graph kept gone dropped) (same : SameOn n n' (OnSide graph kept gone))
    (iff : dropped' ↔ dropped) : Side first n' graph kept gone dropped' := by
  cases side with
  | waiting still untouched => exact .waiting (mt iff.mp still) (untouched.of_same same)
  | losing did arrived state => exact .losing (iff.mpr did) arrived (state.of_same same)

section Drop

variable [DecidableEq V] {first : Network V} {kept gone : V}
  (acyclic : graph.IsAcyclic) (edge : graph.Adj kept gone) (mapped : first.Mapped graph)
  (registries : ∀ v, (first.server v).RegistryConsistent) (memberships : ∀ v, MembershipConsistent (first.server v).toTables)
include acyclic edge mapped registries memberships

/-- The end of the link forgets what it routed over it, and tells its other peers. -/
theorem Losing.start (untouched : Untouched first n (OnSide graph kept gone)) (flushed : n.Flushed)
    (sids : ∀ v, n.sid v = first.sid v) :
    Losing first (n.act kept ⟨(n.server kept).dropLink (n.sid gone), (n.node kept).connected⟩) graph kept gone [] := by
  have sameNode := (untouched kept (.refl kept)).1
  have same : n.server kept = first.server kept := congrArg Node.server sameNode
  have tables : ((n.act kept ⟨(n.server kept).dropLink (n.sid gone), (n.node kept).connected⟩).server kept).toTables =
      (first.server kept).linkDropped (first.sid gone) := by
    rw [act_server_self, Server.flushed_toTables, same, sids]
    exact Server.dropLink_toTables _ _
  have links : ((n.act kept ⟨(n.server kept).dropLink (n.sid gone), (n.node kept).connected⟩).server kept).links =
      (first.server kept).links.erase (first.sid gone) := by
    rw [tables, Tables.linkDropped, (Tables.departedAll_toTopology _ _).1]
    rfl
  have linkedHome (far : V) : first.sid far ∈ (first.server kept).links.erase (first.sid gone) ↔
      (cutEdge graph kept gone).Adj kept far := by
    rw [AList.mem_erase, mapped.mem_links, cutEdge_adj]
    constructor
    · rintro ⟨distinct, adj⟩
      refine ⟨adj, ?_⟩
      rintro (⟨-, rfl⟩ | ⟨rfl, -⟩)
      · exact distinct rfl
      · exact edge.ne rfl
    · rintro ⟨adj, other⟩
      refine ⟨fun clash => other (.inl ⟨rfl, mapped.sids _ _ clash⟩), adj⟩
  have wires (far : V) : (n.act kept ⟨(n.server kept).dropLink (n.sid gone), (n.node kept).connected⟩).wire kept far =
      if first.sid far ∈ (first.server kept).links.erase (first.sid gone) then
        [.squit (first.sid gone) splitReason] else [] := by
    have empty : (first.server kept).sentTo (first.sid far) = [] := by
      rw [Server.sentTo, ← same, flushed kept]
      rfl
    rw [act_wire_self, (untouched kept (.refl kept)).2, List.nil_append, same, sids, sids, dropLink_sentTo, empty]
    rfl
  have others (v : V) (apart : v ≠ kept) : (n.act kept ⟨(n.server kept).dropLink (n.sid gone), (n.node kept).connected⟩).node v =
      n.node v := act_node_other n apart _
  constructor
  case spread => exact .start
  case told =>
    rintro v (rfl | ⟨before, none⟩)
    · rw [tables]
      refine Tables.linkDropped_parted (registries v) (memberships v) ?_ (lost_iff_routed acyclic edge mapped.toRouted)
      exact mapped.lookup_iff.mpr (behind_self edge)
    · cases none
  case linked =>
    intro v side sid
    by_cases own : v = kept
    · subst own
      rw [links]
      constructor
      · intro linked
        obtain ⟨w, adj, rfl⟩ := (mapped.linked v sid).mp (AList.mem_erase.mp linked).2
        exact ⟨w, (linkedHome w).mp linked, rfl⟩
      · rintro ⟨w, adj, rfl⟩
        exact (linkedHome w).mpr adj
    · rw [server, others v own, (untouched v side).1]
      refine (mapped.linked v sid).trans (exists_congr fun w => and_congr_left fun _ => ?_)
      rw [cutEdge_adj, iff_self_and]
      rintro - (⟨same, -⟩ | ⟨same, -⟩)
      · exact own same
      · rw [same] at side
        exact cut_apart acyclic edge side
  case untold =>
    intro v side apart _
    exact (others v apart).trans (untouched v side).1
  case pending =>
    intro here next copied _
    obtain ⟨wanted, rfl | ⟨before, none, -⟩⟩ := copied
    · rw [wires, if_pos ((linkedHome next).mpr wanted.adj)]
    · cases none
  case idle =>
    intro here side next done
    by_cases own : here = kept
    · subst own
      rw [wires, if_neg]
      intro linked
      cases done ⟨⟨next, trivial, behind_self ((linkedHome next).mp linked)⟩, .inl rfl⟩
    · rw [act_wire_other n own]
      exact (untouched here side).2 next

end Drop

/-! ## Runs -/

/-- One end drops the link, or a frame arrives. -/
inductive SplitEvent (V : Type) where
  | drop (here : V)
  | deliver (here next : V)
  deriving DecidableEq

section Runs

variable [DecidableEq V] {first : Network V} {left right : V} {events : List (SplitEvent V)}

/-- The link between two servers is lost: each drops it when it notices, and frames arrive all the while. -/
def splitting (first : Network V) (left right : V) : Machine (Network V) (SplitEvent V) where
  start n := n = first
  step n event n' := match event with
    | .drop here => ∃ gone, (here = left ∧ gone = right ∨ here = right ∧ gone = left) ∧
        n.sid gone ∈ (n.server here).links ∧
        n' = n.act here ⟨(n.server here).dropLink (n.sid gone), (n.node here).connected⟩
    | .deliver here next => n.deliver here next = some n'

/-- How far the news has got after some events. -/
structure Splitting (first n : Network V) (graph : SimpleGraph V) (left right : V) (events : List (SplitEvent V)) :
    Prop where
  flushed : n.Flushed
  near : Side first n graph left right (.drop left ∈ events)
  far : Side first n graph right left (.drop right ∈ events)
  elsewhere : Untouched first n fun v => ¬ graph.Reachable left v

variable (acyclic : graph.IsAcyclic) (edge : graph.Adj left right) (mapped : first.Mapped graph)
  (registries : ∀ v, (first.server v).RegistryConsistent) (memberships : ∀ v, MembershipConsistent (first.server v).toTables)
  (fits : ∀ v, (LinkMessage.squit (first.sid v) splitReason).Fits)

theorem Side.sid {n : Network V} {kept gone : V} {dropped : Prop} (side : Side first n graph kept gone dropped) {v : V}
    (inside : OnSide graph kept gone v) : n.sid v = first.sid v := by
  cases side with
  | waiting still untouched => rw [Network.sid, server, (untouched v inside).1]
  | losing did arrived state => exact state.sid inside

include acyclic edge in
omit [DecidableEq V] in
theorem OnSide.disjoint {v : V} (inside : OnSide graph left right v) : ¬ OnSide graph right left v := by
  intro other
  rw [OnSide, cutEdge_comm] at other
  exact cut_apart acyclic edge (inside.trans other.symm)

include acyclic edge mapped registries memberships in
theorem Side.drop {dropped : Prop} (side : Side first n graph left right dropped) (flushed : n.Flushed)
    (sids : ∀ v, n.sid v = first.sid v) (linked : n.sid right ∈ (n.server left).links) :
    Side first (n.act left ⟨(n.server left).dropLink (n.sid right), (n.node left).connected⟩) graph left right True := by
  cases side with
  | waiting still untouched =>
    exact .losing trivial [] (.start acyclic edge mapped registries memberships untouched flushed sids)
  | losing did arrived state =>
    -- the link is gone already
    rw [sids, state.linked left (.refl left)] at linked
    obtain ⟨w, adj, same⟩ := linked
    rw [mapped.sids _ _ same, cutEdge_adj] at adj
    exact absurd (.inl ⟨rfl, rfl⟩) adj.2

include acyclic edge mapped registries memberships fits in
/-- A frame that arrives on one side is news that is on its way there, and stays there. -/
theorem Side.deliver {dropped : Prop} (side : Side first n graph left right dropped) (flushed : n.Flushed)
    (sids : ∀ v, n.sid v = first.sid v) {here next : V} (inside : OnSide graph left right here) {n' : Network V}
    (delivered : n.deliver here next = some n') :
    Side first n' graph left right dropped ∧ SameOn n n' fun v => ¬ OnSide graph left right v := by
  cases side with
  | waiting still untouched =>
    obtain ⟨message, rest, head, -⟩ := deliver_some delivered
    have empty := (untouched here inside).2 next
    rw [head] at empty
    cases empty
  | losing did arrived state =>
    refine ⟨.losing did _ (state.deliver acyclic edge mapped registries memberships fits flushed sids inside delivered), ?_⟩
    obtain ⟨copied, -, delivers⟩ := state.delivers fits inside delivered
    have onward : OnSide graph left right next := inside.trans copied.1.adj.reachable
    intro v outside
    have notNext : v ≠ next := fun same => outside (same ▸ onward)
    refine ⟨delivers.others v notNext, fun far => delivers.untouched v far notNext fun both => ?_⟩
    exact outside (both.1 ▸ inside)

include acyclic edge in
theorem Splitting.sids (splitting : Splitting first n graph left right events) (v : V) : n.sid v = first.sid v := by
  by_cases reachable : graph.Reachable left v
  · obtain inside | inside := reachable_cut acyclic edge reachable
    · exact splitting.near.sid inside
    · rw [cutEdge_comm] at inside
      exact splitting.far.sid inside
  · rw [Network.sid, server, (splitting.elsewhere v reachable).1]

include acyclic edge mapped registries memberships fits in
theorem Splitting.step (splitting : Splitting first n graph left right events) {event : SplitEvent V} {n' : Network V}
    (taken : (first.splitting left right).step n event n') : Splitting first n' graph left right (events ++ [event]) := by
  have sids := splitting.sids acyclic edge
  have symm := edge.symm
  have apart := edge.ne
  have nearReachable (v : V) (inside : OnSide graph left right v) : graph.Reachable left v :=
    inside.mono (cutEdge_le graph left right)
  have farReachable (v : V) (inside : OnSide graph right left v) : graph.Reachable left v :=
    edge.reachable.trans (inside.mono (cutEdge_le graph right left))
  cases event with
  | drop here =>
    obtain ⟨gone, ⟨rfl, rfl⟩ | ⟨rfl, rfl⟩, linked, rfl⟩ := taken
    · have same : SameOn n (n.act here ⟨(n.server here).dropLink (n.sid gone), (n.node here).connected⟩)
          fun v => ¬ OnSide graph here gone v := by
        intro v outside
        have other : v ≠ here := fun same => outside (same ▸ .refl here)
        exact ⟨act_node_other n other _, fun next => act_wire_other n other next _⟩
      constructor
      · exact splitting.flushed.act here _
      · simpa using splitting.near.drop acyclic edge mapped registries memberships splitting.flushed sids linked
      · refine splitting.far.of_same (fun v inside => same v fun near => near.disjoint acyclic edge inside) ?_
        simp [apart.symm]
      · exact splitting.elsewhere.of_same fun v outside => same v fun near => outside (nearReachable v near)
    · have same : SameOn n (n.act here ⟨(n.server here).dropLink (n.sid gone), (n.node here).connected⟩)
          fun v => ¬ OnSide graph here gone v := by
        intro v outside
        have other : v ≠ here := fun same => outside (same ▸ .refl here)
        exact ⟨act_node_other n other _, fun next => act_wire_other n other next _⟩
      constructor
      · exact splitting.flushed.act here _
      · refine splitting.near.of_same (fun v inside => same v (inside.disjoint acyclic edge)) ?_
        simp [apart]
      · simpa using splitting.far.drop acyclic symm mapped registries memberships splitting.flushed sids linked
      · exact splitting.elsewhere.of_same fun v outside => same v fun far => outside (farReachable v far)
  | deliver here next =>
    have arrives : n.deliver here next = some n' := taken
    have flushed := splitting.flushed.deliver arrives
    have nearIff : SplitEvent.drop left ∈ events ++ [.deliver here next] ↔ .drop left ∈ events := by simp
    have farIff : SplitEvent.drop right ∈ events ++ [.deliver here next] ↔ .drop right ∈ events := by simp
    by_cases reachable : graph.Reachable left here
    · obtain inside | inside := reachable_cut acyclic edge reachable
      · obtain ⟨near, same⟩ := splitting.near.deliver acyclic edge mapped registries memberships fits splitting.flushed
          sids inside arrives
        refine ⟨flushed, near.of_same (fun v _ => ⟨rfl, fun _ => rfl⟩) nearIff, ?_, ?_⟩
        · exact splitting.far.of_same (fun v far => same v fun near => near.disjoint acyclic edge far) farIff
        · exact splitting.elsewhere.of_same fun v outside => same v fun near => outside (nearReachable v near)
      · rw [cutEdge_comm] at inside
        obtain ⟨far, same⟩ := splitting.far.deliver acyclic symm mapped registries memberships fits splitting.flushed
          sids inside arrives
        refine ⟨flushed, ?_, far.of_same (fun v _ => ⟨rfl, fun _ => rfl⟩) farIff, ?_⟩
        · exact splitting.near.of_same (fun v near => same v (near.disjoint acyclic edge)) nearIff
        · exact splitting.elsewhere.of_same fun v outside => same v fun far => outside (farReachable v far)
    · obtain ⟨message, rest, head, -⟩ := deliver_some arrives
      have empty := (splitting.elsewhere here reachable).2 next
      rw [head] at empty
      cases empty

/-- The servers that a server no longer reaches. -/
def Severed (first : Network V) (graph : SimpleGraph V) (left right v : V) (sid : String) : Prop :=
  ∃ far, graph.Reachable v far ∧ ¬ (cutEdge graph left right).Reachable v far ∧ first.sid far = sid

omit [DecidableEq V] in
theorem Mapped.severed_iff (mapped : first.Mapped graph) {v far : V} : first.Severed graph left right v (first.sid far) ↔
    graph.Reachable v far ∧ ¬ (cutEdge graph left right).Reachable v far := by
  constructor
  · rintro ⟨other, reachable, lost, same⟩
    rw [mapped.sids _ _ same] at reachable lost
    exact ⟨reachable, lost⟩
  · exact fun ⟨reachable, lost⟩ => ⟨far, reachable, lost, rfl⟩

include acyclic edge in
omit [DecidableEq V] in
/-- What one side loses is what each server on it no longer reaches. -/
theorem lost_iff_severed {v : V} (side : OnSide graph left right v) (sid : String) :
    first.Lost graph left right sid ↔ first.Severed graph left right v sid := by
  have home : graph.Reachable left v := side.mono (cutEdge_le graph left right)
  constructor
  · rintro ⟨far, reachable, same⟩
    have joined := edge.reachable.trans (reachable.mono (cutEdge_le graph left right))
    refine ⟨far, home.symm.trans joined, fun within => ?_, same⟩
    exact cut_apart acyclic edge ((side.trans within).trans reachable.symm)
  · rintro ⟨far, reachable, lost, same⟩
    obtain kept | gone := reachable_cut acyclic edge (home.trans reachable)
    · exact absurd (side.symm.trans kept) lost
    · exact ⟨far, gone, same⟩

/-- Elsewhere nothing is lost. -/
theorem not_severed {v : V} (elsewhere : ¬ graph.Reachable left v) (sid : String) :
    ¬ first.Severed graph left right v sid := by
  rintro ⟨far, ⟨walk⟩, lost, -⟩
  refine lost (SimpleGraph.reachable_deleteEdges_iff_exists_walk.mpr ⟨walk, fun used => elsewhere ?_⟩)
  exact (walk.takeUntil left (walk.fst_mem_support_of_mem_edges used)).reachable.symm

include acyclic in
omit [DecidableEq V] in
/-- When the news has reached everyone on a side, everyone there has forgotten the other side. -/
theorem Side.parted {n : Network V} (side : Side first n graph left right True) (settled : n.Quiet) {v : V}
    (inside : OnSide graph left right v) :
    Parted (first.server v).toTables (n.server v).toTables (first.Lost graph left right) ∧
      ∀ sid, sid ∈ (n.server v).links ↔ ∃ w, (cutEdge graph left right).Adj v w ∧ first.sid w = sid := by
  cases side with
  | waiting still untouched => exact absurd trivial still
  | losing did arrived state =>
    refine ⟨state.told v ?_, state.linked v inside⟩
    have all : ∀ here next, Copied (cutEdge graph left right) (fun _ => True) left arrived here next →
        (here, next) ∈ arrived := by
      intro here next copied
      by_contra missing
      have waiting := state.pending here next copied missing
      rw [settled] at waiting
      cases waiting
    by_cases own : v = left
    · exact .inl own
    · exact .inr (Copied.complete (cutEdge_acyclic acyclic) all trivial inside own)

include acyclic edge mapped registries memberships fits in
/-- When both ends have dropped a link and nothing is on its way any more, every server has forgotten exactly
the servers that it no longer reaches, with their users and the memberships of these, and knows the way to the
others. -/
theorem netsplit_exact (flushed : first.Flushed) (quiet : first.Quiet) (run : (first.splitting left right).Traced events n)
    (leftDropped : .drop left ∈ events) (rightDropped : .drop right ∈ events) (settled : n.Quiet) :
    (∀ v, Parted (first.server v).toTables (n.server v).toTables (first.Severed graph left right v)) ∧
      n.Mapped (cutEdge graph left right) := by
  have splitting : Splitting first n graph left right events := by
    refine Machine.Traced.invariant (I := fun events n => Splitting first n graph left right events) ?_ ?_ run
    · intro state started
      rw [show state = first from started]
      have untouched (part : V → Prop) : Untouched first first part := fun v _ => ⟨rfl, quiet v⟩
      exact ⟨flushed, .waiting (by simp) (untouched _), .waiting (by simp) (untouched _), untouched _⟩
    · exact fun _ _ _ _ splitting taken => splitting.step acyclic edge mapped registries memberships fits taken
  have sids := splitting.sids acyclic edge
  have near : Side first n graph left right True :=
    splitting.near.of_same (fun v _ => ⟨rfl, fun _ => rfl⟩) (by simp [leftDropped])
  have far : Side first n graph right left True :=
    splitting.far.of_same (fun v _ => ⟨rfl, fun _ => rfl⟩) (by simp [rightDropped])
  have whole (v : V) : Parted (first.server v).toTables (n.server v).toTables (first.Severed graph left right v) ∧
      ∀ sid, sid ∈ (n.server v).links ↔ ∃ w, (cutEdge graph left right).Adj v w ∧ first.sid w = sid := by
    by_cases reachable : graph.Reachable left v
    · obtain inside | inside := reachable_cut acyclic edge reachable
      · have severs : first.Lost graph left right = first.Severed graph left right v :=
          funext fun sid => propext (lost_iff_severed acyclic edge inside sid)
        rw [← severs]
        exact near.parted acyclic settled inside
      · rw [cutEdge_comm] at inside
        have swapped : first.Severed graph left right v = first.Severed graph right left v := by
          funext sid
          rw [Severed, cutEdge_comm]
          rfl
        have severs : first.Lost graph right left = first.Severed graph right left v :=
          funext fun sid => propext (lost_iff_severed acyclic edge.symm inside sid)
        rw [swapped, cutEdge_comm, ← severs]
        exact far.parted acyclic settled inside
    · rw [show n.server v = first.server v from congrArg Node.server (splitting.elsewhere v reachable).1]
      refine ⟨.refl (registries v) (memberships v) (not_severed reachable), fun sid => ?_⟩
      refine (mapped.linked v sid).trans (exists_congr fun w => and_congr_left fun _ => ?_)
      rw [cutEdge_adj, iff_self_and]
      rintro - (⟨rfl, -⟩ | ⟨rfl, -⟩)
      · exact reachable (.refl v)
      · exact reachable edge.reachable
  refine ⟨fun v => (whole v).1, ?_⟩
  -- what each server keeps are the paths of the graph without the edge
  refine ⟨?routed, ?known, ?recorded⟩
  case routed =>
    constructor
    case sids =>
      intro v w same
      exact mapped.sids v w (by rwa [sids, sids] at same)
    case linked =>
      intro v sid
      simp only [sids]
      exact (whole v).2 sid
    case routes =>
      intro v sid owner
      rw [(whole v).1.routes, mapped.routes]
      simp only [sids]
      constructor
      · rintro ⟨⟨w, far, behind, rfl, same⟩, kept⟩
        rw [mapped.severed_iff, not_and_not_right] at kept
        exact ⟨w, far, (behind_cut_iff acyclic).mpr ⟨behind, kept behind.reachable⟩, rfl, same⟩
      · rintro ⟨w, far, behind, rfl, same⟩
        refine ⟨⟨w, far, behind.of_cut, rfl, same⟩, ?_⟩
        rw [mapped.severed_iff]
        exact fun lost => lost.2 behind.reachable
  case known =>
    intro v w far behind further
    obtain ⟨server, found⟩ := Option.isSome_iff_exists.mp
      (AList.lookup_isSome.mpr (mapped.known v w far behind.of_cut further))
    rw [sids]
    refine AList.lookup_isSome.mp (Option.isSome_iff_exists.mpr ⟨server, ((whole v).1.servers _ server).mpr ⟨found, ?_⟩⟩)
    rw [mapped.severed_iff]
    exact fun lost => lost.2 behind.reachable
  case recorded =>
    intro v sid server found
    obtain ⟨found, kept⟩ := ((whole v).1.servers sid server).mp found
    obtain ⟨far, rfl, own, w, behind, further, back, behindBack, uplink⟩ := mapped.recorded v sid server found
    rw [mapped.severed_iff, not_and_not_right] at kept
    have reachable := kept behind.reachable
    simp only [sids]
    exact ⟨far, rfl, own, w, (behind_cut_iff acyclic).mpr ⟨behind, reachable⟩, further, back,
      (behind_cut_iff acyclic).mpr ⟨behindBack, reachable.symm⟩, uplink⟩

end Runs

/-! ### Three servers in a row -/

def row : SimpleGraph (Fin 3) :=
  SimpleGraph.pathGraph 3

instance : DecidableRel row.Adj :=
  fun _ _ => decidable_of_iff _ SimpleGraph.pathGraph_adj.symm

theorem row_acyclic : row.IsAcyclic := by
  have edges : row.edgeFinset.card = 2 := by decide
  have tree : row.IsTree := by
    refine SimpleGraph.isTree_iff_connected_and_card.mpr ⟨SimpleGraph.pathGraph_connected 2, ?_⟩
    rw [Nat.card_eq_fintype_card, ← SimpleGraph.edgeFinset_card, Nat.card_eq_fintype_card, Fintype.card_fin, edges]
  exact tree.isAcyclic

/-- No path has more than two edges. -/
theorem row_behind {here next far : Fin 3} :
    Behind row here next far ↔ row.Adj here next ∧ (far = next ∨ far ≠ here ∧ row.Adj next far) := by
  have ends : ∀ first second third fourth : Fin 3, row.Adj first second → row.Adj second third → third ≠ first →
      row.Adj third fourth → fourth = second := by
    decide
  rw [behind_iff row_acyclic]
  refine and_congr_right fun edge => or_congr_right ⟨?_, ?_⟩
  · rintro ⟨later, onward, behind⟩
    rcases behind.step row_acyclic with rfl | ⟨last, apart, beyond⟩
    · exact ⟨onward, behind.adj⟩
    · exact absurd (ends _ _ _ _ edge behind.adj onward beyond.adj) apart
  · rintro ⟨onward, edge'⟩
    exact ⟨far, onward, behind_self edge'⟩

theorem row_cases {holds : Fin 3 → Prop} (first : holds 0) (middle : holds 1) (last : holds 2) : ∀ v, holds v :=
  Fin.cases first (Fin.cases middle (Fin.cases last fun v => v.elim0))

/-- Alice, as the servers behind her own know her. -/
def aliceAfar : RemoteUser :=
  ⟨"1AA", "1AA1", "alice", "~alice", "host.example", none, "Alice Liddell", none, false, false, false⟩

/-- The server in the middle. -/
def rowBeta : Server :=
  { Server.new ⟨"beta.example", "2BB", "ExampleNet", .rfc1459, 64⟩ 50 128 with
    links := (AList.singleton "3CC" ⟨"3CC", "gamma.example", "Gamma"⟩ : Table String LinkHandle).insert "1AA"
      ⟨"1AA", "alpha.example", "Alpha"⟩
    remoteRoutes := (AList.singleton "3CC" "3CC" : Table String String).insert "1AA" "1AA"
    remoteUsers := AList.singleton "alice" aliceAfar
    remoteByUid := AList.singleton "1AA1" "alice" }

def rowAlpha : Server :=
  { Server.alpha with
    links := AList.singleton "2BB" ⟨"2BB", "beta.example", "Beta"⟩
    remoteRoutes := (AList.singleton "3CC" "2BB" : Table String String).insert "2BB" "2BB"
    remoteServers := AList.singleton "3CC" ⟨"3CC", "gamma.example", "2BB", "Gamma"⟩
    entries := AList.singleton 1
      { nick := "alice", user := "~alice", host := "host.example", realname := "Alice Liddell", registered := true }
    clients := AList.singleton "alice" 1
    byId := [1] }

def rowGamma : Server :=
  { Server.new ⟨"gamma.example", "3CC", "ExampleNet", .rfc1459, 64⟩ 50 128 with
    links := AList.singleton "2BB" ⟨"2BB", "beta.example", "Beta"⟩
    remoteRoutes := (AList.singleton "2BB" "2BB" : Table String String).insert "1AA" "2BB"
    remoteServers := AList.singleton "1AA" ⟨"1AA", "alpha.example", "2BB", "Alpha"⟩
    remoteUsers := AList.singleton "alice" aliceAfar
    remoteByUid := AList.singleton "1AA1" "alice" }

def rowNode : Fin 3 → Node
  | 0 => ⟨rowAlpha, [1]⟩
  | 1 => ⟨rowBeta, []⟩
  | 2 => ⟨rowGamma, []⟩

def rowNetwork : Network (Fin 3) :=
  ⟨rowNode, fun _ _ => []⟩

theorem rowNetwork_routed : rowNetwork.Routed row := by
  have keys : ∀ v, (rowNetwork.server v).links.keys =
      ((List.finRange 3).filter fun w => row.Adj v w).map rowNetwork.sid := by
    decide +kernel
  have entries : ∀ v, (rowNetwork.server v).remoteRoutes.entries =
      (List.finRange 3).flatMap fun far =>
        ((List.finRange 3).filter fun w => row.Adj v w ∧ (far = w ∨ far ≠ v ∧ row.Adj w far)).map fun w =>
          ⟨rowNetwork.sid far, rowNetwork.sid w⟩ := by
    decide +kernel
  constructor
  · decide +kernel
  · intro v sid
    rw [AList.mem_keys, keys]
    simp
  · intro v sid owner
    rw [← Table.mem_entries_iff, entries]
    simp only [row_behind, List.mem_flatMap, List.mem_map, List.mem_filter, List.mem_finRange, true_and,
      decide_eq_true_eq, Sigma.mk.injEq, heq_eq_eq]
    constructor
    · rintro ⟨far, w, behind, same, place⟩
      exact ⟨w, far, behind, same, place⟩
    · rintro ⟨w, far, behind, same, place⟩
      exact ⟨far, w, behind, same, place⟩

theorem rowNetwork_mapped : rowNetwork.Mapped row := by
  refine ⟨rowNetwork_routed, ?_, ?_⟩
  · have stored : ∀ v w far, (row.Adj v w ∧ (far = w ∨ far ≠ v ∧ row.Adj w far)) → far ≠ w →
        ((rowNetwork.server v).remoteServers.lookup (rowNetwork.sid far)).isSome = true := by
      decide +kernel
    exact fun v w far behind further => AList.lookup_isSome.mp (stored v w far (row_behind.mp behind) further)
  · have outward : Behind row 0 1 2 := row_behind.mpr (by decide)
    have back : Behind row 2 1 0 := row_behind.mpr (by decide)
    refine row_cases ?_ ?_ ?_
    · intro sid server found
      obtain ⟨rfl, rfl⟩ := lookup_single found
      exact ⟨2, rfl, rfl, 1, outward, by decide, 1, back, rfl⟩
    · intro sid server found
      cases found
    · intro sid server found
      obtain ⟨rfl, rfl⟩ := lookup_single found
      exact ⟨0, rfl, rfl, 1, back, by decide, 1, outward, rfl⟩

/-- The first two servers have dropped their link, and the news for the third is on its way. -/
def rowDropped : Network (Fin 3) :=
  let dropped := rowNetwork.act 0 ⟨(rowNetwork.server 0).dropLink "2BB", [1]⟩
  dropped.act 1 ⟨(dropped.server 1).dropLink "1AA", []⟩

/-- The third has heard of it. -/
def rowLost : Network (Fin 3) :=
  (rowDropped.deliver 1 2).getD rowDropped

theorem netsplit_exact_row :
    rowDropped.wire 1 2 = [.squit "1AA" splitReason] ∧
      (∀ v, Parted (rowNetwork.server v).toTables (rowLost.server v).toTables (rowNetwork.Severed row 0 1 v)) ∧
      rowLost.Mapped (cutEdge row 0 1) := by
  have edge : row.Adj 0 1 := by decide
  have registries : ∀ v, (rowNetwork.server v).RegistryConsistent := by
    have noted (s : Server) :
        (Registry.remoteInsert ⟨∅, ∅⟩ (s.fold aliceAfar.nick) aliceAfar).Consistent s.fold :=
      Registry.Consistent.empty.remoteInsert (by simp)
    exact row_cases Registry.Consistent.empty (noted rowBeta) (noted rowGamma)
  have memberships : ∀ v, MembershipConsistent (rowNetwork.server v).toTables := by
    have nobody {t : Tables} (channels : t.channels = ∅) (index : t.remoteChannels = ∅) : MembershipConsistent t := by
      constructor
      · intro folded uid
        rw [channels, Tables.channelsOf, index]
        exact iff_of_false Bool.false_ne_true List.not_mem_nil
      · intro folded uid who found
        rw [channels] at found
        cases found
    exact row_cases (nobody rfl rfl) (nobody rfl rfl) (nobody rfl rfl)
  have fits : ∀ v, (LinkMessage.squit (rowNetwork.sid v) splitReason).Fits :=
    row_cases ⟨⟨by decide, by decide⟩, by decide +kernel⟩ ⟨⟨by decide, by decide⟩, by decide +kernel⟩
      ⟨⟨by decide, by decide⟩, by decide +kernel⟩
  have flushed : rowNetwork.Flushed := row_cases rfl rfl rfl
  have first : (rowNetwork.splitting 0 1).Traced ([] ++ [.drop 0])
      (rowNetwork.act 0 ⟨(rowNetwork.server 0).dropLink "2BB", [1]⟩) :=
    .step (.start rfl) ⟨1, .inl ⟨rfl, rfl⟩, AList.lookup_isSome.mp rfl, rfl⟩
  have second : (rowNetwork.splitting 0 1).Traced ([] ++ [.drop 0] ++ [.drop 1]) rowDropped :=
    .step first ⟨0, .inr ⟨rfl, rfl⟩, AList.lookup_isSome.mp rfl, rfl⟩
  have waits : (rowDropped.deliver 1 2).isSome = true := by decide +kernel
  have arrives : rowDropped.deliver 1 2 = some rowLost := by
    obtain ⟨heard, delivered⟩ := Option.isSome_iff_exists.mp waits
    rw [rowLost, delivered]
    rfl
  have run : (rowNetwork.splitting 0 1).Traced ([] ++ [.drop 0] ++ [.drop 1] ++ [.deliver 1 2]) rowLost :=
    .step second arrives
  have settled : rowLost.Quiet := by
    have empty : ∀ here next, rowLost.wire here next = [] := by decide +kernel
    exact empty
  exact ⟨by decide +kernel, netsplit_exact row_acyclic edge rowNetwork_mapped registries memberships fits flushed
    (fun _ _ => rfl) run (by decide) (by decide) settled⟩

end Network

end Ferrixd
