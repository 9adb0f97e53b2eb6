import Ferrixd.Data.Forest
import Ferrixd.Invariant.Commands
import Ferrixd.S2S.Delivery

/-! # A network of servers

Every link is two queues of frames, one for each direction.  A frame crosses as its line, and the receiver acts on what
its parser makes of it.  A server acts on a line of a peer or on a command of a client, and what it queues for its peers
goes on its links in that order. -/

namespace Ferrixd

universe u

/-! ## What a server queues for one peer -/

/-- The frames for a peer among those queued. -/
def framesTo (peerSid : String) (frames : List (String × LinkMessage)) : List LinkMessage :=
  (frames.filter fun frame => frame.1 = peerSid).map (·.2)

theorem framesTo_append (peerSid : String) (frames later : List (String × LinkMessage)) :
    framesTo peerSid (frames ++ later) = framesTo peerSid frames ++ framesTo peerSid later := by
  rw [framesTo, List.filter_append, List.map_append]
  rfl

/-- A frame that goes to each of several peers once. -/
theorem framesTo_peers {peers : List String} (nodup : peers.Nodup) (message : LinkMessage) (peerSid : String) :
    framesTo peerSid (peers.map fun sid => (sid, message)) = if peerSid ∈ peers then [message] else [] := by
  induction peers with
  | nil => rfl
  | cons sid peers ih =>
    obtain ⟨fresh, nodup⟩ := List.nodup_cons.mp nodup
    have split := framesTo_append peerSid [(sid, message)] (peers.map fun sid => (sid, message))
    rw [List.map_cons, ← List.singleton_append, split, ih nodup]
    by_cases same : sid = peerSid
    · subst same
      simp [framesTo, fresh]
    · simp [framesTo, same, Ne.symm same]

namespace Server

/-- The frames queued for a peer, oldest first. -/
def sentTo (s : Server) (peerSid : String) : List LinkMessage :=
  framesTo peerSid s.fx.frames

theorem sentTo_of_frames {s s' : Server} (same : s'.fx.frames = s.fx.frames) (peerSid : String) :
    s'.sentTo peerSid = s.sentTo peerSid := by
  rw [sentTo, same, sentTo]

theorem sentTo_append {s s' : Server} {frames : List (String × LinkMessage)}
    (more : s'.fx.frames = s.fx.frames ++ frames) (peerSid : String) :
    s'.sentTo peerSid = s.sentTo peerSid ++ framesTo peerSid frames := by
  rw [sentTo, more, framesTo_append, sentTo]

theorem sentTo_sendToLink (s : Server) (sid : String) (message : LinkMessage) (peerSid : String) :
    (s.sendToLink sid message).sentTo peerSid =
      s.sentTo peerSid ++ if sid ∈ s.links ∧ sid = peerSid then [message] else [] := by
  rw [sendToLink]
  by_cases linked : sid ∈ s.links
  · rw [if_pos linked, sentTo_append (s := s) rfl]
    by_cases same : sid = peerSid
    · subst same
      simp [framesTo, linked]
    · simp [framesTo, same]
  · simp [linked]

theorem sentTo_forwardToLinks (s : Server) (originSid : String) (message : LinkMessage) (peerSid : String) :
    (s.forwardToLinks originSid message).sentTo peerSid =
      s.sentTo peerSid ++ if peerSid ∈ s.links ∧ peerSid ≠ originSid then [message] else [] := by
  have nodup : (s.links.keys.filter fun sid => sid != originSid).Nodup := s.links.keys_nodup.filter _
  rw [sentTo_append (s := s) rfl, framesTo_peers nodup]
  simp [List.mem_filter, AList.mem_keys]

theorem sentTo_propagateToLinks (s : Server) (message : LinkMessage) (peerSid : String) :
    (s.propagateToLinks message).sentTo peerSid =
      s.sentTo peerSid ++ if peerSid ∈ s.links then [message] else [] := by
  rw [sentTo_append (s := s) rfl, framesTo_peers s.links.keys_nodup]
  simp [AList.mem_keys]

/-- The line of a frame arrives: the server acts on what it reads, and skips what the parser refuses.  A line over the
codec's cap ends the link. -/
def receiveLine (s : Server) (peerSid : String) (message : LinkMessage) : Server :=
  if decode linkMaxLine message.toLine = .tooLong then s.dropLink peerSid
  else (Ferrixd.receive message.toLine).foldl (fun s read => s.receive peerSid read) s

theorem receiveLine_fits {message : LinkMessage} (fits : message.Fits) (s : Server) (peerSid : String) :
    s.receiveLine peerSid message = s.receive peerSid message := by
  have line := LinkMessage.decode_toLine fits.1 fits.budget []
  have read : Ferrixd.receive message.toLine = [message] := by
    have all := LinkMessage.receive_fitting (List.forall_mem_singleton.mpr fits)
    rwa [List.flatMap_singleton] at all
  rw [List.append_nil] at line
  rw [receiveLine, line, if_neg (by simp), read, List.foldl_cons, List.foldl_nil]

/-- The frames were handed to the links. -/
def flushed (s : Server) : Server :=
  s.emit fun fx => { fx with frames := [] }

@[simp] theorem flushed_toTables (s : Server) : s.flushed.toTables = s.toTables := rfl

@[simp] theorem flushed_frames (s : Server) : s.flushed.fx.frames = [] := rfl

@[simp] theorem flushed_mailTo (s : Server) : s.flushed.fx.mail = s.fx.mail := rfl

end Server

/-! ## The network -/

/-- Servers with their clients, and the frames on the way from each server to each other. -/
structure Network (V : Type) where
  node : V → Node
  wire : V → V → List LinkMessage

namespace Network

variable {V : Type}

abbrev server (n : Network V) (v : V) : Server :=
  (n.node v).server

abbrev sid (n : Network V) (v : V) : String :=
  (n.server v).info.sid

/-- Nothing is on its way. -/
def Quiet (n : Network V) : Prop :=
  ∀ here next, n.wire here next = []

/-- No server holds frames back. -/
def Flushed (n : Network V) : Prop :=
  ∀ v, (n.server v).fx.frames = []

section Act

variable [DecidableEq V]

/-- One server acts, and what it queued goes on its links. -/
def act (n : Network V) (v : V) (node : Node) : Network V where
  node := Function.update n.node v ⟨node.server.flushed, node.connected⟩
  wire here next := if here = v then n.wire v next ++ node.server.sentTo (n.sid next) else n.wire here next

/-- The oldest line on a link arrives. -/
def deliver (n : Network V) (here next : V) : Option (Network V) :=
  match n.wire here next with
  | [] => none
  | message :: rest =>
    let taken : Network V :=
      { n with wire := fun sender receiver => if sender = here ∧ receiver = next then rest else n.wire sender receiver }
    some (taken.act next ⟨(n.server next).receiveLine (n.sid here) message, (n.node next).connected⟩)

theorem act_server_self (n : Network V) (v : V) (node : Node) :
    (n.act v node).server v = node.server.flushed := by
  simp [act, server]

theorem act_node_other (n : Network V) {v other : V} (apart : other ≠ v) (node : Node) :
    (n.act v node).node other = n.node other := by
  simp [act, apart]

theorem act_wire_self (n : Network V) (v next : V) (node : Node) :
    (n.act v node).wire v next = n.wire v next ++ node.server.sentTo (n.sid next) := by
  simp [act]

theorem act_wire_other (n : Network V) {v other : V} (apart : other ≠ v) (next : V) (node : Node) :
    (n.act v node).wire other next = n.wire other next := by
  simp [act, apart]

theorem Flushed.act {n : Network V} (flushed : n.Flushed) (v : V) (node : Node) : (n.act v node).Flushed := by
  intro other
  by_cases same : other = v
  · subst same
    rw [act_server_self, Server.flushed_frames]
  · rw [server, act_node_other n same]
    exact flushed other

/-- The frame that is delivered, and what its receiver makes of it. -/
structure Delivers (n n' : Network V) (here next : V) (message : LinkMessage) (rest : List LinkMessage) : Prop where
  waiting : n.wire here next = message :: rest
  server : n'.server next = ((n.server next).receive (n.sid here) message).flushed
  connected : (n'.node next).connected = (n.node next).connected
  others : ∀ other, other ≠ next → n'.node other = n.node other
  taken : here ≠ next → n'.wire here next = rest
  sent : ∀ far, ¬ (next = here ∧ far = next) → n'.wire next far =
    n.wire next far ++ ((n.server next).receive (n.sid here) message).sentTo (n.sid far)
  untouched : ∀ sender receiver, sender ≠ next → ¬ (sender = here ∧ receiver = next) →
    n'.wire sender receiver = n.wire sender receiver

theorem deliver_some {n n' : Network V} {here next : V} (delivered : n.deliver here next = some n') :
    ∃ message rest, n.wire here next = message :: rest ∧ (message.Fits → n.Delivers n' here next message rest) := by
  rw [deliver] at delivered
  cases waiting : n.wire here next with
  | nil => simp [waiting] at delivered
  | cons message rest =>
    simp only [waiting, Option.some.injEq] at delivered
    subst delivered
    refine ⟨message, rest, rfl, fun fits => ?_⟩
    rw [Server.receiveLine_fits fits]
    refine ⟨waiting, act_server_self _ _ _, ?_, ?_, ?_, ?_, ?_⟩
    · simp [act]
    · exact fun other apart => act_node_other _ apart _
    · intro apart
      rw [act_wire_other _ apart]
      simp
    · intro far onward
      rw [act_wire_self]
      simp [onward, sid]
    · intro sender receiver apart elsewhere
      rw [act_wire_other _ apart]
      simp [elsewhere]

theorem Flushed.deliver {n n' : Network V} (flushed : n.Flushed) {here next : V}
    (delivered : n.deliver here next = some n') : n'.Flushed := by
  rw [Network.deliver] at delivered
  cases waiting : n.wire here next with
  | nil => simp [waiting] at delivered
  | cons message rest =>
    simp only [waiting, Option.some.injEq] at delivered
    subst delivered
    exact Flushed.act (fun v => flushed v) next _

/-- From a network on, frames arrive, each link keeping its order. -/
def deliveries (first : Network V) : Machine (Network V) (V × V) where
  start n := n = first
  step n link n' := n.deliver link.1 link.2 = some n'

end Act

/-! ## Routes -/

/-- The links are the edges of a forest, and every server routes along its paths. -/
structure Routed (n : Network V) (graph : SimpleGraph V) : Prop where
  sids : ∀ v w, n.sid v = n.sid w → v = w
  linked : ∀ v sid, sid ∈ (n.server v).links ↔ ∃ w, graph.Adj v w ∧ n.sid w = sid
  routes : ∀ v sid owner, (n.server v).remoteRoutes.lookup sid = some owner ↔
    ∃ w far, Behind graph v w far ∧ n.sid far = sid ∧ n.sid w = owner

namespace Routed

variable {n n' : Network V} {graph : SimpleGraph V}

theorem mem_links (routed : n.Routed graph) {v w : V} : n.sid w ∈ (n.server v).links ↔ graph.Adj v w := by
  rw [routed.linked]
  constructor
  · rintro ⟨other, edge, same⟩
    rwa [routed.sids _ _ same] at edge
  · exact fun edge => ⟨w, edge, rfl⟩

theorem lookup_iff (routed : n.Routed graph) {v w far : V} :
    (n.server v).remoteRoutes.lookup (n.sid far) = some (n.sid w) ↔ Behind graph v w far := by
  rw [routed.routes]
  constructor
  · rintro ⟨other, place, behind, samePlace, same⟩
    rwa [routed.sids _ _ samePlace, routed.sids _ _ same] at behind
  · exact fun behind => ⟨w, far, behind, rfl, rfl⟩

/-- A server is routed through the neighbour that it lies behind. -/
theorem routedVia_iff (routed : n.Routed graph) {v w far : V} :
    (n.server v).routedVia (n.sid w) (n.sid far) = true ↔ Behind graph v w far := by
  rw [Tables.routedVia, Option.any_eq_true, ← routed.lookup_iff]
  simp

theorem routeFor_iff (routed : n.Routed graph) (acyclic : graph.IsAcyclic) {v far : V} {peer : String} :
    (n.server v).routeFor (n.sid far) = some peer ↔ ∃ w, Behind graph v w far ∧ n.sid w = peer := by
  rw [Tables.routeFor]
  by_cases direct : n.sid far ∈ (n.server v).links
  · rw [if_pos direct, Option.some.injEq]
    have behind := behind_self (routed.mem_links.mp direct)
    constructor
    · exact fun same => ⟨far, behind, same⟩
    · rintro ⟨w, other, rfl⟩
      rw [behind.unique acyclic other]
  · rw [if_neg direct, Option.filter_eq_some_iff, routed.routes]
    constructor
    · rintro ⟨⟨w, place, behind, same, rfl⟩, -⟩
      rw [routed.sids _ _ same] at behind
      exact ⟨w, behind, rfl⟩
    · rintro ⟨w, behind, rfl⟩
      refine ⟨⟨w, far, behind, rfl, rfl⟩, ?_⟩
      rw [decide_eq_true_eq]
      exact routed.mem_links.mpr behind.adj

/-- The routes are read from the topology of each server alone. -/
theorem of_same (routed : n.Routed graph) (sid : ∀ v, n'.sid v = n.sid v)
    (topology : ∀ v, (n'.server v).toTopology = (n.server v).toTopology) : n'.Routed graph where
  sids v w same := routed.sids v w (by rwa [sid, sid] at same)
  linked v key := by
    simp only [topology, sid]
    exact routed.linked v key
  routes v key owner := by
    simp only [topology, sid]
    exact routed.routes v key owner

end Routed

/-! ## Two linked servers -/

/-- `true` and `false` linked with each other, and nothing under way. -/
def pair (left right : Node) : Network Bool where
  node side := if side then left else right
  wire _ _ := []

theorem pair_acyclic : (⊤ : SimpleGraph Bool).IsAcyclic :=
  .of_card_le_two (by simp)

theorem pair_behind {here next far : Bool} : Behind ⊤ here next far ↔ here ≠ next ∧ far = next := by
  rw [behind_iff pair_acyclic, SimpleGraph.top_adj]
  refine and_congr_right fun edge => ⟨?_, .inl⟩
  rintro (same | ⟨later, back, onward⟩)
  · exact same
  · -- the only other side is the one it came from
    have apart := onward.adj.ne
    cases here <;> cases next <;> cases later <;> simp at edge back apart

theorem pair_routed {left right : Node} (apart : left.server.info.sid ≠ right.server.info.sid)
    (leftLinks : ∀ sid, sid ∈ left.server.links ↔ sid = right.server.info.sid)
    (rightLinks : ∀ sid, sid ∈ right.server.links ↔ sid = left.server.info.sid)
    (leftRoutes : left.server.remoteRoutes = AList.singleton right.server.info.sid right.server.info.sid)
    (rightRoutes : right.server.remoteRoutes = AList.singleton left.server.info.sid left.server.info.sid) :
    (pair left right).Routed ⊤ := by
  have lookup (sid key owner : String) : (AList.singleton sid sid : Table String String).lookup key = some owner ↔
      sid = key ∧ sid = owner := by
    show List.dlookup key [(⟨sid, sid⟩ : Σ _ : String, String)] = some owner ↔ _
    by_cases same : key = sid
    · subst same
      simp
    · rw [List.dlookup_cons_ne _ _ same]
      simp [Ne.symm same]
  constructor
  · intro v w same
    cases v <;> cases w <;> first | rfl | exact absurd same apart | exact absurd same.symm apart
  · intro v sid
    cases v
    · rw [show sid ∈ ((pair left right).server false).links ↔ _ from rightLinks sid]
      simp [pair, Network.sid, server, eq_comm]
    · rw [show sid ∈ ((pair left right).server true).links ↔ _ from leftLinks sid]
      simp [pair, Network.sid, server, eq_comm]
  · intro v key owner
    simp only [pair_behind]
    cases v
    · rw [show ((pair left right).server false).remoteRoutes = _ from rightRoutes, lookup]
      simp [pair, Network.sid, server]
    · rw [show ((pair left right).server true).remoteRoutes = _ from leftRoutes, lookup]
      simp [pair, Network.sid, server]

theorem lookup_single {ν : Type} {key place : String} {value found : ν}
    (held : (AList.singleton key value : Table String ν).lookup place = some found) : place = key ∧ found = value := by
  have stored := Table.mem_entries_iff.mpr held
  cases List.mem_singleton.mp stored
  exact ⟨rfl, rfl⟩

/-- The server `alpha.example`, linked to `beta.example` and otherwise new. -/
def linkedAlpha : Server :=
  { Server.alpha with
    links := AList.singleton "2BB" ⟨"2BB", "beta.example", "Beta"⟩
    remoteRoutes := AList.singleton "2BB" "2BB" }

/-- The server `beta.example`, linked to `alpha.example` and otherwise new. -/
def linkedBeta : Server :=
  { Server.new ⟨"beta.example", "2BB", "ExampleNet", .rfc1459, 64⟩ 50 128 with
    links := AList.singleton "1AA" ⟨"1AA", "alpha.example", "Alpha"⟩
    remoteRoutes := AList.singleton "1AA" "1AA" }

/-- Whatever their clients do, the two servers stay routed to each other. -/
theorem linked_routed {left right : Node} (alpha : left.server.toTopology = linkedAlpha.toTopology)
    (beta : right.server.toTopology = linkedBeta.toTopology) (leftSid : left.server.info.sid = "1AA")
    (rightSid : right.server.info.sid = "2BB") : (pair left right).Routed ⊤ := by
  have single (sid key : String) (handle : LinkHandle) : key ∈ (AList.singleton sid handle : Table String LinkHandle) ↔
      key = sid :=
    List.mem_singleton
  refine pair_routed ?_ ?_ ?_ ?_ ?_
  · rw [leftSid, rightSid]
    decide
  · intro sid
    rw [alpha, rightSid]
    exact single "2BB" sid _
  · intro sid
    rw [beta, leftSid]
    exact single "1AA" sid _
  · rw [alpha, rightSid]
    rfl
  · rw [beta, leftSid]
    rfl

end Network

end Ferrixd
