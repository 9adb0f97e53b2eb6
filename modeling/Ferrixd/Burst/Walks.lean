import Ferrixd.Burst
import Ferrixd.Invariant.Routes

/-! # The walks over the link tree

A split collects the servers behind a SID, a burst puts the known servers after their uplinks.
Both follow uplinks as the peers recorded them: these may be unknown, or lead in a circle. -/

namespace Ferrixd

/-! ## The loops -/

/-- The variables of the topology section. -/
structure Announcing where
  announced : List String
  queue : List RemoteServer
  pending : List RemoteServer

/-- One turn of the topology section. -/
def Announcing.turn (a : Announcing) : Announcing ⊕ List RemoteServer :=
  if a.pending.isEmpty then .inr a.queue
  else
    let (ready, rest) := a.pending.partition fun server => server.uplink ∈ a.announced
    -- servers whose uplink is never announced are announced all the same
    if ready.isEmpty then .inr (a.queue ++ rest)
    else .inl ⟨a.announced ++ ready.map (·.sid), a.queue ++ ready, rest⟩

namespace Tables

/-- The direct peers but one, as they are announced to it. -/
def otherLinks (t : Tables) (peerSid : String) : List RemoteServer :=
  (t.links.values.filter fun link => link.sid != peerSid).map fun link =>
    ⟨link.sid, link.name, t.info.sid, link.description⟩

/-- The servers behind peers, without the peer itself. -/
def pendingServers (t : Tables) (peerSid : String) : List RemoteServer :=
  t.remoteServers.values.filter fun server => server.sid != peerSid

/-- What the topology section starts from. -/
def announcing (t : Tables) (peerSid : String) : Announcing :=
  ⟨t.info.sid :: (t.otherLinks peerSid).map (·.sid), t.otherLinks peerSid, t.pendingServers peerSid⟩

/-- One turn of the loop that collects what a split takes with it. -/
def splitTurn (t : Tables) : List String → List String ⊕ List String :=
  grow RemoteServer.uplink RemoteServer.sid t.remoteServers.values

end Tables

/-! ## What is wanted of them -/

/-- The uplinks from a server lead, over the given servers, to one of the roots. -/
inductive LeadsTo (servers : List RemoteServer) (roots : List String) : RemoteServer → Prop where
  | root {server : RemoteServer} (home : server.uplink ∈ roots) : LeadsTo servers roots server
  | hop {server parent : RemoteServer} (known : parent ∈ servers)
      (uplink : server.uplink = parent.sid) (rest : LeadsTo servers roots parent) :
      LeadsTo servers roots server

/-- Wherever a server stands in the list, its uplink is `own` or stands before it. -/
def AfterUplink (own : String) (list : List RemoteServer) (server : RemoteServer) : Prop :=
  ∀ before after, list = before ++ server :: after →
    server.uplink = own ∨ server.uplink ∈ before.map (·.sid)

namespace Tables

/-- The loop of a split ends with the least set that contains the SID and every server whose
uplink it contains. -/
structure SplitsSubtree (t : Tables) (sid : String) : Prop where
  ends : ∀ split, Loop t.splitTurn [sid] split ↔ split = t.uplinkSubtree sid
  least : ∀ other, other ∈ t.uplinkSubtree sid ↔ ∀ closed : String → Prop, closed sid →
    (∀ server ∈ t.remoteServers.values, closed server.uplink → closed server.sid) → closed other

/-- The uplinks from a server lead to us or to a direct peer other than this one. -/
def LeadsHome (t : Tables) (peerSid : String) (server : RemoteServer) : Prop :=
  LeadsTo t.remoteServers.values (t.info.sid :: (t.otherLinks peerSid).map (·.sid)) server

/-- The topology section ends; it announces every known server but the peer once, and after its
uplink if the uplinks lead home. -/
structure BurstsTree (t : Tables) (peerSid : String) : Prop where
  ends : ∀ servers, Loop Announcing.turn (t.announcing peerSid) servers ↔
    servers = t.announcedServers peerSid
  once : ∀ sid, ((t.announcedServers peerSid).map (·.sid)).count sid =
    if sid ≠ peerSid ∧ (sid ∈ t.links ∨ sid ∈ t.remoteServers) then 1 else 0
  ordered : ∀ server ∈ t.announcedServers peerSid, t.LeadsHome peerSid server →
    AfterUplink t.info.sid (t.announcedServers peerSid) server

/-- No direct peer but this one is listed as a server behind a peer, and this one is not on the
way from such a server to us. -/
structure PeersApart (t : Tables) (peerSid : String) : Prop where
  apart : ∀ sid ∈ t.links, sid ≠ peerSid → sid ∉ t.remoteServers
  aside : ∀ server ∈ t.remoteServers.values, server.sid ≠ peerSid → t.LeadsHome peerSid server →
    server.uplink ≠ peerSid

/-- Links and servers are filed under their SIDs, and we are not our own peer. -/
structure FiledBySid (t : Tables) : Prop where
  links : ∀ sid link, t.links.lookup sid = some link → link.sid = sid
  servers : ∀ sid server, t.remoteServers.lookup sid = some server → server.sid = sid
  ownUnlinked : t.info.sid ∉ t.links

end Tables

/-! ## The order of a burst -/

/-- Appending servers whose uplinks are already listed keeps the order. -/
theorem AfterUplink.append {own : String} {list more : List RemoteServer} {server : RemoteServer}
    (ordered : AfterUplink own list server)
    (listed : server ∈ more → server.uplink = own ∨ server.uplink ∈ list.map (·.sid)) :
    AfterUplink own (list ++ more) server := by
  intro before after same
  rcases List.append_eq_append_iff.mp same with ⟨middle, earlier, rest⟩ | ⟨middle, earlier, rest⟩
  · -- it stands among the new ones
    rw [earlier, List.map_append, List.mem_append]
    have member : server ∈ more := by
      rw [rest]
      simp
    cases listed member with
    | inl own => exact .inl own
    | inr before => exact .inr (.inl before)
  · cases middle with
    | nil =>
      rw [List.append_nil] at earlier
      rw [← earlier]
      refine listed ?_
      rw [List.nil_append] at rest
      rw [← rest]
      exact List.mem_cons_self
    | cons first middle =>
      have first : server = first := (List.cons.inj rest).1
      subst first
      exact ordered before middle earlier

/-- Once no pending server has its uplink announced, none of them leads to an announced one. -/
theorem LeadsTo.not_pending {servers pending : List RemoteServer} {roots announced : List String}
    {server : RemoteServer} (leads : LeadsTo servers roots server)
    (rooted : roots ⊆ announced)
    (seen : ∀ other ∈ servers, other.sid ∈ announced ∨ other ∈ pending)
    (stuck : ∀ other ∈ pending, other.uplink ∉ announced) : server ∉ pending := by
  induction leads with
  | root home => exact fun member => stuck _ member (rooted home)
  | hop known uplink _ ih =>
    intro member
    cases seen _ known with
    | inl announced =>
      rw [← uplink] at announced
      exact stuck _ member announced
    | inr waiting => exact ih waiting

namespace Announcing

/-- What the topology section has done so far, of the servers in `all`. -/
structure Sound (own : String) (roots : List String) (all : List RemoteServer) (a : Announcing) :
    Prop where
  rooted : roots ⊆ a.announced
  announced : ∀ sid, sid ∈ a.announced ↔ sid = own ∨ sid ∈ a.queue.map (·.sid)
  complete : (a.queue ++ a.pending).Perm all
  ordered : ∀ server, AfterUplink own a.queue server

variable {own : String} {roots : List String} {all : List RemoteServer} {a : Announcing}

/-- The servers whose uplink is announced, and the others. -/
theorem pending_perm (a : Announcing) :
    ((a.pending.partition fun server => server.uplink ∈ a.announced).1 ++
      (a.pending.partition fun server => server.uplink ∈ a.announced).2).Perm a.pending := by
  rw [List.partition_eq_filter_filter]
  exact List.filter_append_perm _ _

theorem Sound.turn {next : Announcing} (sound : a.Sound own roots all)
    (goes : a.turn = .inl next) : next.Sound own roots all := by
  rw [Announcing.turn] at goes
  split at goes
  · cases goes
  · cases split : a.pending.partition fun server => server.uplink ∈ a.announced with
    | mk ready rest =>
      have parts := pending_perm a
      rw [split] at parts goes
      dsimp only at goes parts
      split at goes
      · cases goes
      · cases goes
        constructor
        case rooted => exact fun sid root => List.mem_append_left _ (sound.rooted root)
        case announced =>
          intro sid
          rw [List.mem_append, sound.announced, List.map_append, List.mem_append, or_assoc]
        case complete =>
          rw [List.append_assoc]
          exact (parts.append_left _).trans sound.complete
        case ordered =>
          intro server
          refine (sound.ordered server).append fun member => ?_
          -- what is put into the queue had its uplink announced before
          rw [List.partition_eq_filter_filter] at split
          rw [← (Prod.mk.inj split).1, List.mem_filter] at member
          exact (sound.announced _).mp (of_decide_eq_true member.2)

/-- What the section leaves with: all the servers, those that lead to a root in order. -/
theorem Sound.leave {servers queue : List RemoteServer} (sound : a.Sound own roots all)
    (known : servers ⊆ all) (left : a.turn = .inr queue) :
    queue.Perm all ∧ ∀ server, LeadsTo servers roots server → AfterUplink own queue server := by
  rw [Announcing.turn] at left
  split at left
  · rename_i none
    cases left
    have complete := sound.complete
    rw [List.isEmpty_iff.mp none, List.append_nil] at complete
    exact ⟨complete, fun server _ => sound.ordered server⟩
  · cases split : a.pending.partition fun server => server.uplink ∈ a.announced with
    | mk ready rest =>
      have parts := pending_perm a
      rw [split] at parts left
      dsimp only at left parts
      split at left
      · rename_i none
        cases left
        rw [List.isEmpty_iff.mp none] at parts split
        refine ⟨(parts.append_left _).trans sound.complete, fun server leads => ?_⟩
        -- a server that leads to a root is no longer pending
        refine (sound.ordered server).append fun member => ?_
        refine absurd (parts.mem_iff.mp member) (leads.not_pending sound.rooted ?_ ?_)
        · intro other inServers
          cases List.mem_append.mp (sound.complete.mem_iff.mpr (known inServers)) with
          | inl queued => exact .inl ((sound.announced _).mpr (.inr (List.mem_map_of_mem queued)))
          | inr waiting => exact .inr waiting
        · intro other waiting announced
          rw [List.partition_eq_filter_filter] at split
          have ready := List.filter_eq_nil_iff.mp (Prod.mk.inj split).1 other waiting
          exact ready (decide_eq_true announced)
      · cases left

/-- The loop ends, with the servers in the order of the burst. -/
theorem loop_parentsFirst {rounds : Nat} (a : Announcing) (enough : a.pending.length ≤ rounds) :
    Loop Announcing.turn a (a.queue ++ parentsFirst rounds a.announced a.pending) := by
  induction rounds generalizing a with
  | zero =>
    have none := List.length_eq_zero_iff.mp (Nat.le_zero.mp enough)
    refine .leave ?_
    rw [turn, if_pos (List.isEmpty_iff.mpr none), none, parentsFirst, List.append_nil]
  | succ rounds ih =>
    cases split : a.pending.partition fun server => server.uplink ∈ a.announced with
    | mk ready rest =>
      have parts := pending_perm a
      rw [split] at parts
      dsimp only at parts
      have length := parts.length_eq
      rw [List.length_append] at length
      rw [parentsFirst, split]
      dsimp only
      by_cases nothing : a.pending.isEmpty
      · -- nothing pending: neither side of the partition has a server
        have none := List.isEmpty_iff.mp nothing
        rw [none, List.length_nil] at length
        have noReady : ready = [] := List.length_eq_zero_iff.mp (by omega)
        have noRest : rest = [] := List.length_eq_zero_iff.mp (by omega)
        refine .leave ?_
        rw [turn, if_pos nothing, noReady, noRest]
        simp
      · by_cases stuck : ready.isEmpty
        · refine .leave ?_
          rw [turn, if_neg nothing, split]
          dsimp only
          rw [if_pos stuck, if_pos stuck]
        · have some : 0 < ready.length :=
            List.length_pos_iff.mpr fun nil => stuck (List.isEmpty_iff.mpr nil)
          have goes : a.turn = .inl ⟨a.announced ++ ready.map (·.sid), a.queue ++ ready, rest⟩ := by
            rw [turn, if_neg nothing, split]
            dsimp only
            rw [if_neg stuck]
          rw [if_neg stuck, ← List.append_assoc]
          exact .turn goes (ih ⟨_, _, _⟩ (by dsimp only; omega))

end Announcing

namespace Tables

variable {t : Tables} {peerSid : String}

theorem announcing_ends (t : Tables) (peerSid : String) :
    Loop Announcing.turn (t.announcing peerSid) (t.announcedServers peerSid) := by
  have ends := Announcing.loop_parentsFirst (t.announcing peerSid) (Nat.le_refl _)
  have same : t.announcedServers peerSid = (t.announcing peerSid).queue ++
      parentsFirst (t.announcing peerSid).pending.length (t.announcing peerSid).announced
        (t.announcing peerSid).pending := by
    simp [announcedServers, announcing, otherLinks, pendingServers, Function.comp_def]
  rw [same]
  exact ends

/-- The servers recorded behind peers that lead home do so without the peer itself. -/
theorem LeadsHome.pending {server : RemoteServer} (leads : t.LeadsHome peerSid server)
    (aside : ∀ server ∈ t.remoteServers.values, server.sid ≠ peerSid → t.LeadsHome peerSid server →
      server.uplink ≠ peerSid)
    (member : server ∈ t.remoteServers.values) (notPeer : server.sid ≠ peerSid) :
    LeadsTo (t.pendingServers peerSid) (t.info.sid :: (t.otherLinks peerSid).map (·.sid)) server := by
  induction leads with
  | root home => exact .root home
  | hop known uplink rest ih =>
    have parentNotPeer := aside _ member notPeer (.hop known uplink rest)
    rw [uplink] at parentNotPeer
    refine .hop ?_ uplink (ih known parentNotPeer)
    exact List.mem_filter.mpr ⟨known, by simpa using parentNotPeer⟩

theorem announcing_sound (t : Tables) (peerSid : String) :
    (t.announcing peerSid).Sound t.info.sid (t.info.sid :: (t.otherLinks peerSid).map (·.sid))
      (t.otherLinks peerSid ++ t.pendingServers peerSid) := by
  constructor
  case rooted => exact List.Subset.refl _
  case announced => exact fun sid => List.mem_cons
  case complete => exact List.Perm.refl _
  case ordered =>
    intro server before after same
    have member : server ∈ t.otherLinks peerSid := by
      have queue : t.otherLinks peerSid = before ++ server :: after := same
      rw [queue]
      simp
    obtain ⟨link, -, rfl⟩ := List.mem_map.mp member
    exact .inl rfl

/-- A burst has the other links and the servers behind peers, and those that lead to a root stand
after their uplinks. -/
theorem announcedServers_spec (t : Tables) (peerSid : String) :
    (t.announcedServers peerSid).Perm (t.otherLinks peerSid ++ t.pendingServers peerSid) ∧
      ∀ server, LeadsTo (t.pendingServers peerSid)
          (t.info.sid :: (t.otherLinks peerSid).map (·.sid)) server →
        AfterUplink t.info.sid (t.announcedServers peerSid) server := by
  refine (announcing_ends t peerSid).spec (P := fun queue =>
    queue.Perm (t.otherLinks peerSid ++ t.pendingServers peerSid) ∧
      ∀ server, LeadsTo (t.pendingServers peerSid)
          (t.info.sid :: (t.otherLinks peerSid).map (·.sid)) server →
        AfterUplink t.info.sid queue server) ?_ ?_ (announcing_sound t peerSid)
  · exact fun _ _ sound goes => sound.turn goes
  · exact fun _ _ sound left => sound.leave (List.subset_append_right _ _) left

/-! ## How often a server is announced -/

/-- In a table filed under a key, the keys of the values but one. -/
theorem keys_but {ν : Type} {key : ν → String} {table : Table String ν}
    (filed : ∀ stored value, table.lookup stored = some value → key value = stored)
    (one : String) :
    (table.values.filter fun value => key value != one).map key = table.keys.filter (· != one) := by
  have keys : table.values.map key = table.keys := by
    rw [Table.values, List.map_map]
    refine List.map_congr_left fun entry member => ?_
    exact filed entry.1 entry.2 (Table.mem_entries_iff.mp member)
  rw [← keys, List.filter_map]
  rfl

/-- A SID is announced for a link with it and for a server with it. -/
theorem count_announced (filed : t.FiledBySid) (sid : String) :
    ((t.announcedServers peerSid).map (·.sid)).count sid =
      (if sid ≠ peerSid ∧ sid ∈ t.links then 1 else 0) +
        if sid ≠ peerSid ∧ sid ∈ t.remoteServers then 1 else 0 := by
  have links : (t.otherLinks peerSid).map (·.sid) = t.links.keys.filter (· != peerSid) := by
    rw [← keys_but filed.links, otherLinks, List.map_map]
    rfl
  have servers : (t.pendingServers peerSid).map (·.sid) = t.remoteServers.keys.filter (· != peerSid) :=
    keys_but filed.servers peerSid
  rw [((t.announcedServers_spec peerSid).1.map _).count_eq, List.map_append, List.count_append, links,
    servers, (t.links.keys_nodup.filter _).count, (t.remoteServers.keys_nodup.filter _).count]
  simp only [List.mem_filter, bne_iff_ne, AList.mem_keys, and_comm]

/-! ## The walks, for any uplinks -/

theorem splitsSubtree (t : Tables) (sid : String) : t.SplitsSubtree sid := by
  constructor
  case ends =>
    intro split
    have run : Loop t.splitTurn [sid] (t.uplinkSubtree sid) :=
      loop_saturate (List.length_filter_le _ _)
    constructor
    · exact fun other => other.deterministic run
    · intro same
      rw [same]
      exact run
  case least =>
    intro other
    rw [uplinkSubtree, mem_saturate_iff_least]
    simp

/-- The bursts of servers that are apart are in order. -/
theorem PeersApart.burstsTree (filed : t.FiledBySid) (holds : t.PeersApart peerSid) :
    t.BurstsTree peerSid := by
  constructor
  case ends =>
    intro servers
    constructor
    · exact fun other => other.deterministic (announcing_ends t peerSid)
    · intro same
      rw [same]
      exact announcing_ends t peerSid
  case once =>
    intro sid
    rw [count_announced filed]
    by_cases peer : sid = peerSid
    · simp [peer]
    · by_cases linked : sid ∈ t.links
      · simp [peer, linked, holds.apart sid linked peer]
      · simp [peer, linked]
  case ordered =>
    intro server member leads
    refine (t.announcedServers_spec peerSid).2 server ?_
    cases List.mem_append.mp ((t.announcedServers_spec peerSid).1.mem_iff.mp member) with
    -- the other links are under us, the rest needs a way that does not pass the peer
    | inl link =>
      obtain ⟨link, -, rfl⟩ := List.mem_map.mp link
      exact .root List.mem_cons_self
    | inr behind =>
      obtain ⟨known, notPeer⟩ := List.mem_filter.mp behind
      exact leads.pending holds.aside known (by simpa using notPeer)

/-- Whatever uplinks are recorded, the subtree of a split is the least one, and the burst to a
peer is complete and in order exactly if the peers are apart from the servers behind them. -/
theorem treeWalks_iff (filed : t.FiledBySid) (linked : peerSid ∈ t.links) :
    ((∀ sid, t.SplitsSubtree sid) ∧ t.BurstsTree peerSid) ↔ t.PeersApart peerSid := by
  constructor
  · intro ⟨_, bursts⟩
    constructor
    -- what is a link and also behind one would be announced for both
    case apart =>
      intro sid linked notPeer behind
      have once := bursts.once sid
      rw [count_announced filed, if_pos ⟨notPeer, linked⟩, if_pos ⟨notPeer, behind⟩,
        if_pos ⟨notPeer, .inl linked⟩] at once
      cases once
    case aside =>
      intro server known notPeer leads throughPeer
      have member : server ∈ t.announcedServers peerSid := by
        rw [(t.announcedServers_spec peerSid).1.mem_iff, List.mem_append]
        exact .inr (List.mem_filter.mpr ⟨known, by simpa using notPeer⟩)
      obtain ⟨before, after, same⟩ := List.append_of_mem member
      rcases bursts.ordered server member leads before after same with own | earlier
      · rw [throughPeer] at own
        rw [own] at linked
        exact filed.ownUnlinked linked
      · -- the peer itself would be announced to it
        rw [throughPeer] at earlier
        have none := bursts.once peerSid
        rw [if_neg (fun one => one.1 rfl), List.count_eq_zero, same, List.map_append] at none
        exact none (List.mem_append_left _ earlier)
  · intro holds
    exact ⟨t.splitsSubtree, holds.burstsTree filed⟩

/-! ## Runs -/

/-- Only entries filed under their SIDs were added. -/
theorem FiledBySid.of_added {t' : Tables} (filed : t.FiledBySid) (info : t'.info = t.info)
    (links : ∀ sid link, t'.links.lookup sid = some link →
      t.links.lookup sid = some link ∨ (link.sid = sid ∧ sid ≠ t.info.sid))
    (servers : ∀ sid server, t'.remoteServers.lookup sid = some server →
      t.remoteServers.lookup sid = some server ∨ server.sid = sid) : t'.FiledBySid := by
  constructor
  case links =>
    intro sid link found
    cases links sid link found with
    | inl old => exact filed.links sid link old
    | inr new => exact new.1
  case servers =>
    intro sid server found
    cases servers sid server found with
    | inl old => exact filed.servers sid server old
    | inr new => exact new
  case ownUnlinked =>
    rw [info]
    intro linked
    obtain ⟨link, found⟩ := Option.isSome_iff_exists.mp (AList.lookup_isSome.mpr linked)
    cases links _ link found with
    | inl old => exact filed.ownUnlinked (AList.lookup_isSome.mp (by rw [old]; rfl))
    | inr new => exact new.2 rfl

end Tables

/-- In a well-formed topology the peers are apart. -/
theorem RouteInvariant.peersApart {t : Tables} (inv : RouteInvariant t) {peerSid : String}
    (linked : peerSid ∈ t.links) : t.PeersApart peerSid := by
  constructor
  case apart => exact fun sid isLink _ => inv.linkNotBehind sid isLink
  case aside =>
    intro server _ _ leads throughPeer
    cases leads with
    -- a server right under us or another link is not under this one
    | root home =>
      rw [throughPeer] at home
      cases List.mem_cons.mp home with
      | inl own =>
        have routed := inv.linkRouted peerSid linked
        rw [own, inv.ownUnrouted] at routed
        cases routed
      | inr other =>
        obtain ⟨entry, isLink, same⟩ := List.mem_map.mp other
        obtain ⟨link, kept, rfl⟩ := List.mem_map.mp isLink
        have notPeer := (List.mem_filter.mp kept).2
        have peer : link.sid = peerSid := same
        simp [peer] at notPeer
    | hop known uplink _ =>
      obtain ⟨key, found⟩ := Table.mem_values_iff.mp known
      rw [throughPeer, inv.serverKey _ _ found] at uplink
      rw [uplink] at linked
      exact inv.linkNotBehind key linked (AList.lookup_isSome.mp (by rw [found]; rfl))

namespace LinkCall

theorem perform_filed {s : Server} {call : LinkCall} (filed : s.FiledBySid) :
    (call.perform s).FiledBySid := by
  -- a claim of a route leaves links and servers alone
  have claim : ∀ peerSid sid, (s.routeAuthorize peerSid sid).1.links = s.links ∧
      (s.routeAuthorize peerSid sid).1.remoteServers = s.remoteServers ∧
      (s.routeAuthorize peerSid sid).1.info = s.info := by
    intro peerSid sid
    obtain ⟨same, -⟩ | ⟨same, -, -⟩ | ⟨same, -, -⟩ := Server.routeAuthorize_cases s peerSid sid <;>
      rw [same] <;> exact ⟨rfl, rfl, rfl⟩
  cases call with
  | tryRegisterLink handle =>
    rw [perform]
    cases result : s.tryRegisterLink handle with
    | error reason => exact filed
    | ok s' =>
      obtain ⟨foreign, -, -, rfl⟩ := Server.tryRegisterLink_ok result
      refine filed.of_added rfl (fun sid link found => ?_) (fun _ _ found => .inl found)
      have found : (s.links.insert handle.sid handle).lookup sid = some link := found
      rw [Table.lookup_insert_if] at found
      split at found
      · rename_i same
        cases found
        refine .inr ⟨same.symm, fun own => ?_⟩
        rw [same] at own
        simp [Tables.isOwnIdentity, own] at foreign
      · exact .inl found
  | acceptRemoteServer peerSid server =>
    rw [perform]
    cases result : s.acceptRemoteServer peerSid server with
    | error reason => exact filed
    | ok s' =>
      obtain ⟨-, -, -, rfl⟩ := Server.acceptRemoteServer_ok result
      obtain ⟨links, -, info⟩ := claim peerSid server.sid
      refine filed.of_added info (fun sid link found => .inl ?_) (fun sid other found => ?_)
      · rw [← links]
        exact found
      · have found : (s.remoteServers.insert server.sid server).lookup sid = some other := found
        rw [Table.lookup_insert_if] at found
        split at found
        · rename_i same
          cases found
          exact .inr same.symm
        · exact .inl found
  | routeAuthorize peerSid sid =>
    obtain ⟨links, servers, info⟩ := claim peerSid sid
    refine filed.of_added info (fun sid link found => .inl ?_) (fun sid server found => .inl ?_)
    · rw [← links]
      exact found
    · rw [← servers]
      exact found
  | splitRemoteServer peerSid sid =>
    obtain ⟨topology, info⟩ := Tables.departedAll_toTopology
      { s.toTables with toTopology := s.toTopology.without (s.uplinkSubtree sid) }
      (s.uidsBehind (s.uplinkSubtree sid))
    rw [perform, Server.splitRemoteServer_toTables, Tables.splitOff]
    refine filed.of_added info (fun sid link found => .inl ?_) (fun sid server found => .inl ?_)
    · rw [topology] at found
      exact found
    · rw [topology] at found
      simp only [Topology.without, Table.lookup_retain] at found
      exact (Option.filter_eq_some_iff.mp found).1
  | dropLink sid =>
    obtain ⟨topology, info⟩ := Tables.departedAll_toTopology
      { s.toTables with toTopology := s.toTopology.unlinked sid }
      (s.uidsBehind (sid :: s.routedBehind sid))
    rw [perform, Server.dropLink_toTables, Tables.linkDropped]
    refine filed.of_added info (fun sid link found => .inl ?_) (fun sid server found => .inl ?_)
    · rw [topology] at found
      simp only [Topology.unlinked, Table.lookup_erase_if] at found
      split at found
      · cases found
      · exact found
    · rw [topology] at found
      simp only [Topology.unlinked, Table.lookup_retain] at found
      exact (Option.filter_eq_some_iff.mp found).1

/-- In every run links and servers are filed under their SIDs. -/
theorem run_filed {s : Server} (run : machine.Reachable s) : s.FiledBySid := by
  refine run.invariant (I := fun s => s.FiledBySid) ?_ ?_
  · intro state ⟨info, historyLen, historyMaxTargets, fresh⟩
    rw [fresh]
    constructor
    case links => exact fun sid link found => by cases found
    case servers => exact fun sid server found => by cases found
    case ownUnlinked => exact fun linked => by cases linked
  · intro state call next filed _ ⟨_, performed⟩
    rw [performed]
    exact perform_filed filed

/-- `gamma.example` links to us. -/
def linkGamma : LinkCall :=
  tryRegisterLink ⟨"3CC", "gamma.example", "Gamma"⟩

theorem treeWalks_iff_gamma :
    ((∀ sid, (introduceGamma.perform (linkBeta.perform .alpha)).SplitsSubtree sid) ∧
        (introduceGamma.perform (linkBeta.perform .alpha)).BurstsTree "2BB") ↔
      (introduceGamma.perform (linkBeta.perform .alpha)).PeersApart "2BB" := by
  apply Tables.treeWalks_iff
  · apply run_filed
    refine .step (e := introduceGamma)
      (.step (e := linkBeta) (.start ⟨_, _, _, rfl⟩) trivial ⟨trivial, rfl⟩) trivial ⟨?_, rfl⟩
    show "2BB" ∈ (linkBeta.perform .alpha).links
    decide
  · decide

/-- A peer that introduced itself is announced twice to the next one. -/
theorem selfIntroduction_announcedTwice :
    ¬ ∀ s, machine.Reachable s → ∀ peerSid ∈ s.links,
      (∀ sid, s.SplitsSubtree sid) ∧ s.BurstsTree peerSid := by
  intro holds
  have run : machine.Reachable
      (linkGamma.perform (introduceItself.perform (linkBeta.perform .alpha))) := by
    refine .step (e := linkGamma) (.step (e := introduceItself)
      (.step (e := linkBeta) (.start ⟨_, _, _, rfl⟩) trivial ⟨trivial, rfl⟩) trivial ⟨?_, rfl⟩)
      trivial ⟨trivial, rfl⟩
    show "2BB" ∈ (linkBeta.perform .alpha).links
    decide
  have once := (holds _ run "3CC" (by decide)).2.once "2BB"
  have twice : ((linkGamma.perform (introduceItself.perform (linkBeta.perform .alpha))).announcedServers
      "3CC").map (·.sid) = ["2BB", "2BB"] := by decide
  rw [twice, if_pos (by decide)] at once
  cases once

end LinkCall

end Ferrixd
