import Ferrixd.Network.Users

/-! # The registries of a network

Every frame about a user is heeded where it arrives.  When nothing is under way the servers know each other's users
as they are. -/

namespace Ferrixd.Network

variable {V : Type} {n n' : Network V} {graph : SimpleGraph V} {mapping : CaseMapping}

/-! ## Arrivals -/

/-- The arrival of a frame: its receiver acts on it, and what it sends on goes on its links. -/
structure Arrives [DecidableEq V] (n n' : Network V) (here next : V) (message : LinkMessage)
    (rest : List LinkMessage) : Prop where
  waiting : n.wire here next = message :: rest
  self : n'.node next = ⟨((n.server next).receive (n.sid here) message).flushed, (n.node next).connected⟩
  others : ∀ other, other ≠ next → n'.node other = n.node other
  wire : ∀ sender receiver, n'.wire sender receiver =
    (if sender = here ∧ receiver = next then rest else n.wire sender receiver) ++
      if sender = next then ((n.server next).receive (n.sid here) message).sentTo (n.sid receiver) else []

namespace Arrives

variable [DecidableEq V] {here next : V} {message : LinkMessage} {rest : List LinkMessage}
  (arrives : n.Arrives n' here next message rest)
include arrives

theorem mem_waiting : message ∈ n.wire here next := by
  rw [arrives.waiting]
  exact List.mem_cons_self

/-- Whatever is under way was so before, or was sent on. -/
theorem mem_wire {sender receiver : V} {other : LinkMessage} (sent : other ∈ n'.wire sender receiver) :
    other ∈ n.wire sender receiver ∨ sender = next ∧
      other ∈ ((n.server next).receive (n.sid here) message).sentTo (n.sid receiver) := by
  rw [arrives.wire, List.mem_append] at sent
  rcases sent with old | new
  · left
    split at old
    · rename_i both
      rw [both.1, both.2, arrives.waiting]
      exact List.mem_cons_of_mem _ old
    · exact old
  · split at new
    · rename_i own
      exact .inr ⟨own, new⟩
    · cases new

/-- Of the frames about a user only the one that arrives is taken. -/
theorem taken_about (uid : String) (sender receiver : V) :
    (if sender = here ∧ receiver = next then rest else n.wire sender receiver).filter
        (fun message => message.subject = some uid) =
      if sender = here ∧ receiver = next ∧ message.subject = some uid then
        rest.filter fun message => message.subject = some uid
      else n.wireAbout uid sender receiver := by
  by_cases both : sender = here ∧ receiver = next
  · obtain ⟨rfl, rfl⟩ := both
    rw [wireAbout, arrives.waiting]
    by_cases own : message.subject = some uid
    · simp [own]
    · simp [own]
  · rw [if_neg both, if_neg fun all => both ⟨all.1, all.2.1⟩, wireAbout]

end Arrives

namespace Acquainted

variable [DecidableEq V] (acquainted : n.Acquainted graph mapping) {here next : V} {message : LinkMessage}
  {rest : List LinkMessage}
include acquainted

/-- A frame about nobody arrives. -/
theorem arrives_aside (arrives : n.Arrives n' here next message rest) (silent : message.subject = none)
    (rooms : RoomsOnly (n.server next).toTables ((n.server next).receive (n.sid here) message).toTables)
    (kinds : ∀ far, ∀ other ∈ ((n.server next).receive (n.sid here) message).sentTo (n.sid far),
      other.subject = none ∧ n.Travels graph next far other) : n'.Acquainted graph mapping := by
  refine acquainted.aside rooms ((acquainted.locals next).receive _ _) arrives.self arrives.others ?_ ?_
  · intro sender receiver home id
    rw [wireAbout, arrives.wire, List.filter_append, arrives.taken_about, silent]
    simp only [reduceCtorEq, and_false, if_false]
    split
    · rw [filter_silent (fun other sent => (kinds receiver other sent).1), List.append_nil]
    · rw [List.filter_nil, List.append_nil]
  · intro sender receiver other sent
    rcases arrives.mem_wire sent with old | ⟨rfl, new⟩
    · exact .inl old
    · exact .inr (kinds receiver other new)

theorem arrives_neutral (arrives : n.Arrives n' here next message rest) (neutral : message.neutral = true) :
    n'.Acquainted graph mapping := by
  obtain ⟨rooms, ⟨sent, frames, kinds⟩, -⟩ := (n.server next).receive_neutral (n.sid here) neutral
  refine acquainted.arrives_aside arrives (LinkMessage.subject_of_neutral neutral) rooms fun far other member => ?_
  rw [acquainted.sentTo_of_frames next frames] at member
  obtain ⟨frame, there, rfl⟩ := List.mem_map.mp member
  have isNeutral := kinds frame (List.mem_filter.mp there).1
  exact ⟨LinkMessage.subject_of_neutral isNeutral, .inl isNeutral⟩

/-- A kill arrives at the server of its victim, or is passed on. -/
theorem arrives_kill (acyclic : graph.IsAcyclic) {home : V} {id : UInt64} {reason : String}
    (arrives : n.Arrives n' here next (.kill (n.uidOf home id) reason) rest) (behind : Behind graph here next home) :
    n'.Acquainted graph mapping := by
  by_cases own : home = next
  · subst own
    have isOwn : (n.server home).ownsLocalUid (n.uidOf home id) = true := by
      rw [Tables.ownsLocalUid, uidOf, Tables.localIdOfUid_localUid]
      rfl
    obtain ⟨rooms, frames⟩ : RoomsOnly (n.server home).toTables ((n.server home).receive (n.sid here)
        (.kill (n.uidOf home id) reason)).toTables ∧ _ := Server.receive_kill_own isOwn
    refine acquainted.arrives_aside arrives rfl rooms fun far other member => ?_
    rw [Server.sentTo_of_frames frames, acquainted.sentTo_nil] at member
    cases member
  · have foreign := foreign_uid acquainted.routed.sids acquainted.lengths own id
    -- the victim is behind another neighbour than the one that the kill came from
    have inward : (n.server next).remoteUidAuthorized (n.sid here) (n.uidOf home id) = false := by
      rw [Tables.remoteUidAuthorized]
      cases known : (n.server next).remoteUserByUid (n.uidOf home id) with
      | none => rfl
      | some user =>
        obtain ⟨-, -, sid⟩ := acquainted.known_sid known
        dsimp only
        rw [sid, Bool.eq_false_iff]
        exact fun via => (acquainted.routed.routedVia_iff.mp via).not_back acyclic behind
    have received : (n.server next).receive (n.sid here) (.kill (n.uidOf home id) reason) = _ :=
      Server.receive_kill_passing foreign inward
    cases known : (n.server next).remoteUserByUid (n.uidOf home id) with
    | none =>
      rw [known] at received
      have dropped : (n.server next).receive (n.sid here) (.kill (n.uidOf home id) reason) = n.server next := received
      refine acquainted.arrives_aside arrives rfl (.of_eq (congrArg Server.toTables dropped)) fun far other member => ?_
      rw [dropped, acquainted.sentTo_nil] at member
      cases member
    | some user =>
      obtain ⟨-, -, sid⟩ := acquainted.known_sid known
      rw [known] at received
      have passed : (n.server next).receive (n.sid here) (.kill (n.uidOf home id) reason) =
          (n.server next).sendTowards user.serverSid (.kill (n.uidOf home id) reason) := received
      refine acquainted.arrives_aside arrives rfl ?_ fun far other member => ?_
      · rw [passed]
        exact .of_eq (Server.sendTowards_toTables _ _ _)
      · rw [passed, Server.sendTowards] at member
        cases route : (n.server next).routeFor user.serverSid with
        | none =>
          simp only [route, acquainted.sentTo_nil] at member
          cases member
        | some peer =>
          simp only [route, Server.sentTo_sendToLink, acquainted.sentTo_nil, List.nil_append] at member
          split at member
          · rename_i there
            rw [List.mem_singleton.mp member]
            rw [sid, acquainted.routed.routeFor_iff acyclic] at route
            obtain ⟨w, onward, same⟩ := route
            rw [acquainted.routed.sids _ _ (same.trans there.2)] at onward
            exact ⟨rfl, .inr (.inr ⟨home, id, reason, rfl, onward⟩)⟩
          · cases member

end Acquainted

/-! ## Frames about users -/

/-- A frame about a client arrives, and its receiver heeds it. -/
structure Hears [DecidableEq V] (n n' : Network V) (graph : SimpleGraph V) (here next home : V) (id : UInt64)
    (message : LinkMessage) (rest : List LinkMessage) (later : Option RemoteUser) : Prop where
  arrives : n.Arrives n' here next message rest
  about : message.subject = some (n.uidOf home id)
  outward : Behind graph next here home
  heeds : heed ((n.server next).remoteUserByUid (n.uidOf home id)) message = some later
  heeded : Heeded (n.server next) ((n.server next).receive (n.sid here) message) (n.sid here) message
    (n.uidOf home id) later

section Hears

variable [DecidableEq V] (acquainted : n.Acquainted graph mapping) {here next home : V} {id : UInt64}
  {message : LinkMessage} {rest : List LinkMessage} {later : Option RemoteUser}

include acquainted in
/-- A frame about a client is heeded wherever it arrives. -/
theorem Acquainted.hears (arrives : n.Arrives n' here next message rest) (about : message.subject = some (n.uidOf home id))
    (introduces : ∀ sid uid hops nick user host account realname,
      message = .uid sid uid hops nick user host account realname → sid = n.sid home) :
    ∃ later, n.Hears n' graph here next home id message rest later := by
  have before := acquainted.following home id
  have waits : n.wireAbout (n.uidOf home id) here next =
      message :: rest.filter fun message => message.subject = some (n.uidOf home id) := by
    rw [wireAbout, arrives.waiting, List.filter_cons_of_pos (by simpa using about)]
  have outward := before.outward waits
  have apart : next ≠ home := Ne.symm outward.ne
  obtain ⟨later, heeds, -⟩ := before.applies waits
  rw [knownAt, if_neg apart] at heeds
  have maySay : (n.server next).MaySay (n.sid here) (n.uidOf home id) message := by
    constructor
    · intro user known
      rw [(acquainted.known_sid known).2.2]
      exact acquainted.routed.routedVia_iff.mpr outward
    · intro sid hops nick user host account realname isUid
      have isSid := introduces sid _ hops nick user host account realname isUid
      rw [isSid]
      refine ⟨startsWith_iff.mpr ⟨printU64 id, rfl⟩, ?_, acquainted.routed.lookup_iff.mpr outward⟩
      exact fun same => apart (acquainted.routed.sids _ _ same).symm
    · exact fun nick claim => acquainted.freeFor arrives.mem_waiting about claim (Ne.symm apart)
  exact ⟨later, arrives, about, outward, heeds, Server.receive_heeded (acquainted.registry next) about maySay heeds⟩

namespace Hears

variable (hears : n.Hears n' graph here next home id message rest later)
include hears

theorem server : n'.server next = ((n.server next).receive (n.sid here) message).flushed :=
  congrArg Node.server hears.arrives.self

theorem apart : next ≠ home :=
  Ne.symm hears.outward.ne

theorem servers : SameServers n n' := by
  refine SameServers.of_self ?_ ?_ hears.arrives.others
  · rw [hears.server]
    exact hears.heeded.info
  · rw [hears.server]
    exact hears.heeded.topology

theorem findClient (w : V) (folded : String) : (n'.server w).findClient folded = (n.server w).findClient folded := by
  by_cases isNext : w = next
  · rw [isNext, hears.server]
    exact congrArg (fun clients => clients.lookup folded) hears.heeded.clients.clients
  · rw [Network.server, hears.arrives.others w isNext]

theorem user (w : V) (who : UInt64) : (n'.node w).user who = (n.node w).user who := by
  by_cases isNext : w = next
  · rw [isNext, hears.arrives.self]
    exact Node.user_sameClients hears.heeded.info hears.heeded.clients who
  · rw [hears.arrives.others w isNext]

theorem byUid (w : V) (uid : String) : (n'.server w).remoteUserByUid uid =
    if w = next ∧ uid = n.uidOf home id then later else (n.server w).remoteUserByUid uid := by
  by_cases isNext : w = next
  · rw [isNext, hears.server]
    simp only [true_and]
    exact hears.heeded.knows uid
  · rw [Network.server, hears.arrives.others w isNext, if_neg fun both => isNext both.1]

include acquainted

theorem knownAt (home' : V) (id' : UInt64) (w : V) : n'.knownAt home' id' w =
    if w = next ∧ n.uidOf home' id' = n.uidOf home id then later else n.knownAt home' id' w := by
  simp only [Network.knownAt, hears.user, hears.byUid, hears.servers.uidOf]
  split
  · rename_i isHome
    rw [if_neg]
    rintro ⟨rfl, sameUid⟩
    exact hears.apart (isHome.trans (acquainted.uid_injective sameUid).1)
  · rfl

/-- What is sent on is the frame that arrived, and it does not go back. -/
theorem sentOn {far : V} {other : LinkMessage}
    (sent : other ∈ ((n.server next).receive (n.sid here) message).sentTo (n.sid far)) :
    other = message ∧ graph.Adj next far ∧ far ≠ here := by
  rcases hears.heeded.sent with passed | ⟨kept, -⟩
  · rw [passed, acquainted.sentTo_nil, List.nil_append] at sent
    split at sent
    · rename_i there
      refine ⟨List.mem_singleton.mp sent, acquainted.routed.mem_links.mp there.1, ?_⟩
      rintro rfl
      exact there.2 rfl
    · cases sent
  · rw [kept, acquainted.sentTo_nil] at sent
    cases sent

omit acquainted in
/-- On a link on which nothing is sent on, at most the frame that arrived is missing. -/
theorem wireAbout_taken {sender receiver : V} (untold : ∀ other, sender = next →
      other ∉ ((n.server next).receive (n.sid here) message).sentTo (n.sid receiver)) :
    n'.wireAbout (n.uidOf home id) sender receiver = if sender = here ∧ receiver = next then
      rest.filter fun message => message.subject = some (n.uidOf home id)
    else n.wireAbout (n.uidOf home id) sender receiver := by
  have none : (if sender = next then
      ((n.server next).receive (n.sid here) message).sentTo (n.sid receiver) else []) = [] := by
    split
    · rename_i isNext
      exact List.eq_nil_iff_forall_not_mem.mpr fun other => untold other isNext
    · rfl
  rw [wireAbout, hears.arrives.wire, none, List.append_nil, hears.arrives.taken_about]
  simp only [hears.about, and_true]

/-- The receiver follows the change. -/
theorem following_own (acyclic : graph.IsAcyclic) :
    Following graph heed home (n'.knownAt home id) (n'.wireAbout (n.uidOf home id)) := by
  have before := acquainted.following home id
  have waits : n.wireAbout (n.uidOf home id) here next =
      message :: rest.filter fun message => message.subject = some (n.uidOf home id) := by
    rw [wireAbout, hears.arrives.waiting, List.filter_cons_of_pos (by simpa using hears.about)]
  have knows : n.knownAt home id next = (n.server next).remoteUserByUid (n.uidOf home id) := if_neg hears.apart
  have value := hears.knownAt acquainted home id
  simp only [and_true] at value
  have incoming : n'.wireAbout (n.uidOf home id) here next = _ :=
    hears.wireAbout_taken fun _ same => absurd same hears.outward.adj.ne'
  rcases hears.heeded.sent with passed | ⟨kept, unchanged⟩
  · refine before.pass acyclic waits (knows ▸ hears.heeds) ?_ ?_ ?_ ?_ ?_
    · rw [value, if_pos rfl]
    · intro other isOther
      rw [value, if_neg isOther]
    · rw [incoming, if_pos ⟨rfl, rfl⟩]
    · intro far edge notBack
      have linked : n.sid far ∈ (n.server next).links ∧ n.sid far ≠ n.sid here :=
        ⟨acquainted.routed.mem_links.mpr edge, fun sameSid => notBack (acquainted.routed.sids _ _ sameSid)⟩
      rw [wireAbout, hears.arrives.wire, List.filter_append, hears.arrives.taken_about, if_pos rfl, passed,
        if_pos linked, if_neg fun both => edge.ne both.2.1.symm, acquainted.sentTo_nil]
      simp [hears.about]
    · intro sender receiver notIncoming notOnward
      rw [hears.wireAbout_taken, if_neg notIncoming]
      intro other isNext sent
      obtain ⟨-, edge, notBack⟩ := hears.sentOn acquainted sent
      exact notOnward ⟨isNext, edge, notBack⟩
  · have silent (receiver : V) (other : LinkMessage) :
        other ∉ ((n.server next).receive (n.sid here) message).sentTo (n.sid receiver) := by
      rw [kept, acquainted.sentTo_nil]
      exact List.not_mem_nil
    have values : n'.knownAt home id = n.knownAt home id := by
      funext w
      rw [value]
      split
      · rename_i isNext
        rw [isNext, knows, unchanged]
      · rfl
    rw [values]
    refine before.drop waits ?_ ?_ ?_
    · rw [knows, hears.heeds, unchanged]
    · rw [incoming, if_pos ⟨rfl, rfl⟩]
    · intro sender receiver notIncoming
      rw [hears.wireAbout_taken fun other _ => silent receiver other, if_neg notIncoming]

/-- The frame is about one client. -/
theorem following_other {home' : V} {id' : UInt64} (other : ¬ (home' = home ∧ id' = id)) :
    Following graph heed home' (n'.knownAt home' id') (n'.wireAbout (n.uidOf home' id')) := by
  have otherUid : n.uidOf home' id' ≠ n.uidOf home id := fun sameUid => other (acquainted.uid_injective sameUid)
  have values : n'.knownAt home' id' = n.knownAt home' id' := by
    funext w
    rw [hears.knownAt acquainted, if_neg fun both => otherUid both.2]
  have notAbout : ¬ message.subject = some (n.uidOf home' id') := by
    rw [hears.about, Option.some.injEq]
    exact otherUid.symm
  have wires : n'.wireAbout (n.uidOf home' id') = n.wireAbout (n.uidOf home' id') := by
    funext sender receiver
    have none : (((n.server next).receive (n.sid here) message).sentTo (n.sid receiver)).filter
        (fun message => message.subject = some (n.uidOf home' id')) = [] := by
      rw [List.filter_eq_nil_iff]
      intro other sent
      rw [(hears.sentOn acquainted sent).1]
      simpa using notAbout
    rw [wireAbout, hears.arrives.wire, List.filter_append, hears.arrives.taken_about, if_neg fun all => notAbout all.2.2]
    split
    · rw [none, List.append_nil]
    · rw [List.filter_nil, List.append_nil]
  rw [values, wires]
  exact acquainted.following home' id'

/-- A nick that is claimed now was claimed before, at the latest in the frame. -/
theorem claims {folded : String} {home' : V} {id' : UInt64} (claims : n'.Claims mapping folded home' id') :
    n.Claims mapping folded home' id' := by
  rcases claims with held | ⟨w, user, known, isFolded⟩ | ⟨sender, receiver, other, nick, sent, subject, claim, isFolded⟩
  · rw [hears.findClient] at held
    exact .inl held
  · rw [hears.servers.uidOf, hears.byUid] at known
    split at known
    · rename_i both
      obtain ⟨rfl, isUid⟩ := both
      subst known
      rcases heed_nick hears.heeds with claim | ⟨old, isKnown, nick⟩
      · exact .inr (.inr ⟨here, w, message, user.nick, hears.arrives.mem_waiting, isUid ▸ hears.about, claim, isFolded⟩)
      · exact .inr (.inl ⟨w, old, isUid ▸ isKnown, nick ▸ isFolded⟩)
    · exact .inr (.inl ⟨w, user, known, isFolded⟩)
  · rw [hears.servers.uidOf] at subject
    rcases hears.arrives.mem_wire sent with old | ⟨rfl, new⟩
    · exact .inr (.inr ⟨sender, receiver, other, nick, old, subject, claim, isFolded⟩)
    · obtain ⟨rfl, -, -⟩ := hears.sentOn acquainted new
      exact .inr (.inr ⟨here, sender, other, nick, hears.arrives.mem_waiting, subject, claim, isFolded⟩)

end Hears

include acquainted in
/-- A frame about a user arrives: its receiver knows the change, and tells its other neighbours of it. -/
theorem Acquainted.arrives_heeded (acyclic : graph.IsAcyclic) (arrives : n.Arrives n' here next message rest)
    (about : message.subject = some (n.uidOf home id))
    (introduces : ∀ sid uid hops nick user host account realname,
      message = .uid sid uid hops nick user host account realname → sid = n.sid home) :
    n'.Acquainted graph mapping := by
  obtain ⟨later, hears⟩ := acquainted.hears arrives about introduces
  have same := hears.servers
  have sound : n'.Sound graph mapping := by
    refine acquainted.toSound.step same arrives.others ?_ ?_ ?_
    · rw [hears.server]
      rfl
    · rw [hears.server, arrives.self]
      exact (acquainted.locals next).receive _ _
    · rw [hears.server]
      exact hears.heeded.registry
  refine { sound with
    following := ?following, owned := ?owned, travels := ?travels, exclusive := ?exclusive }
  case following =>
    intro home' id'
    rw [same.uidOf]
    by_cases own : home' = home ∧ id' = id
    · obtain ⟨rfl, rfl⟩ := own
      exact hears.following_own acquainted acyclic
    · exact hears.following_other acquainted own
  case owned =>
    intro w uid known found
    simp only [same.uidOf, same.sid]
    rw [hears.byUid] at found
    split at found
    · rename_i both
      obtain ⟨rfl, rfl⟩ := both
      refine ⟨home, id, hears.apart.symm, hears.outward.reachable, rfl, ?_⟩
      subst found
      rcases heed_sid hears.heeds with ⟨uid, hops, nick, name, host, account, realname, isUid⟩ | ⟨old, isKnown, sid⟩
      · exact introduces _ _ _ _ _ _ _ _ isUid
      · rw [← sid]
        exact (acquainted.known_sid isKnown).2.2
    · exact acquainted.owned w uid known found
  case travels =>
    intro sender receiver other sent
    refine same.travels ?_
    rcases arrives.mem_wire sent with old | ⟨rfl, new⟩
    · exact acquainted.travels sender receiver other old
    · obtain ⟨rfl, -, -⟩ := hears.sentOn acquainted new
      exact .inr (.inl ⟨home, id, about, introduces⟩)
  case exclusive =>
    exact fun folded home id home' id' left right => acquainted.exclusive _ _ _ _ _ (hears.claims acquainted left)
      (hears.claims acquainted right)

end Hears

/-! ## Runs -/

section Runs

variable [DecidableEq V]

/-- Any frame arrives. -/
theorem Acquainted.arrives (acquainted : n.Acquainted graph mapping) (acyclic : graph.IsAcyclic) {here next : V}
    {message : LinkMessage} {rest : List LinkMessage} (arrives : n.Arrives n' here next message rest) :
    n'.Acquainted graph mapping := by
  rcases acquainted.travels here next message arrives.mem_waiting with
    neutral | ⟨home, id, about, introduces⟩ | ⟨home, id, reason, rfl, behind⟩
  · exact acquainted.arrives_neutral arrives neutral
  · exact acquainted.arrives_heeded acyclic arrives about introduces
  · exact acquainted.arrives_kill acyclic arrives behind

/-- Linked servers without clients, and nothing under way. -/
structure Fresh (n : Network V) (graph : SimpleGraph V) (mapping : CaseMapping) : Prop where
  routed : n.Routed graph
  lengths : ∀ v w, (n.sid v).length = (n.sid w).length
  folds : ∀ v, (n.server v).info.casemapping = mapping
  flushed : n.Flushed
  quiet : n.Quiet
  clients : ∀ v, (n.server v).clients = ∅ ∧ (n.server v).channels = ∅ ∧ (n.node v).connected = []
  users : ∀ v, (n.server v).toRegistry = ⟨∅, ∅⟩

omit [DecidableEq V] in
/-- Nobody claims a nick that no client holds while no server knows of another's users. -/
theorem unclaimed {folded : String} (clients : ∀ v, (n.server v).findClient folded = none)
    (users : ∀ v, (n.server v).toRegistry = ⟨∅, ∅⟩) (quiet : n.Quiet) (home : V) (id : UInt64) :
    ¬ n.Claims mapping folded home id := by
  rintro (held | ⟨v, user, known, -⟩ | ⟨here, next, message, nick, sent, -, -, -⟩)
  · rw [clients] at held
    cases held
  · rw [Tables.remoteUserByUid, users] at known
    cases known
  · rw [quiet] at sent
    cases sent

theorem Fresh.acquainted (fresh : n.Fresh graph mapping) : n.Acquainted graph mapping := by
  have unknown (v : V) (uid : String) : (n.server v).remoteUserByUid uid = none := by
    rw [Tables.remoteUserByUid, fresh.users]
    rfl
  have nobody (v : V) (id : UInt64) : (n.node v).user id = none := by
    rw [Node.user, if_neg]
    rw [(fresh.clients v).2.2]
    exact fun both => List.not_mem_nil both.1
  have sound : n.Sound graph mapping := by
    refine ⟨fresh.routed, fresh.lengths, fresh.folds, fresh.flushed, fun v => ?_, fun v => ?_⟩
    · obtain ⟨clients, channels, connected⟩ := fresh.clients v
      have start : SessionCall.machine.start (n.node v) := ⟨clients, channels, connected⟩
      exact SessionCall.run_localConsistent (.start start)
    · rw [Tables.RegistryConsistent, fresh.users]
      exact .empty
  refine { sound with
    following := ?following, owned := ?owned, travels := ?travels, exclusive := ?exclusive }
  case following =>
    intro home id
    have values (v : V) : n.knownAt home id v = none := by
      rw [knownAt]
      split
      · exact nobody home id
      · exact unknown v _
    refine .start values fun here next => ?_
    rw [wireAbout, fresh.quiet]
    rfl
  case owned =>
    intro v uid user known
    rw [unknown] at known
    cases known
  case travels =>
    intro here next message sent
    rw [fresh.quiet] at sent
    cases sent
  case exclusive =>
    have noClient (folded : String) (v : V) : (n.server v).findClient folded = none := by
      rw [Tables.findClient, (fresh.clients v).1]
      rfl
    exact fun folded home id _ _ claims => absurd claims (unclaimed (noClient folded) fresh.users fresh.quiet home id)

/-- Clients act on their servers, and frames arrive. -/
inductive UserEvent (V : Type) where
  | call (v : V) (call : ClientCall)
  | deliver (here next : V)

namespace UserEvent

/-- Servers that start linked and empty. -/
def machine (graph : SimpleGraph V) (mapping : CaseMapping) : Machine (Network V) (UserEvent V) where
  start n := n.Fresh graph mapping
  step n event n' := match event with
    | .call v issued => ∃ node', issued.Performs (n.node v) node' ∧ n' = n.act v node'
    | .deliver here next => n.deliver here next = some n'

end UserEvent

end Runs

/-! ### Two servers -/

namespace UserEvent

end UserEvent

end Ferrixd.Network
