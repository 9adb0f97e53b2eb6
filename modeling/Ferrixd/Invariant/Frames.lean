import Ferrixd.Invariant.Origin

/-! # Every frame of a peer

Each arm of the read loop keeps what the checks rely on and leaves other users alone. -/

namespace Ferrixd

/-- What holds after a frame of a peer was handled. -/
structure FrameKept (info : ServerInfo) (t t' : Tables) (peerSid : String) (message : LinkMessage) :
    Prop where
  inv : t'.LinkInvariant info
  others : t.OthersRespected t' peerSid message

namespace FrameKept

variable {info : ServerInfo} {t t' : Tables} {peerSid : String} {message : LinkMessage}

theorem of_eq (inv : t.LinkInvariant info) (same : t' = t) : FrameKept info t t' peerSid message := by
  rw [same]
  refine ⟨inv, fun _ _ known _ => .inl known, fun _ uid _ _ _ => .inl (.refl t uid), .of_locals rfl, ?_⟩
  exact fun _ => .of_locals rfl (.refl _)

/-- A frame about other things than presence that leaves the registry alone. -/
theorem quiet (inv : t'.LinkInvariant info) (silent : message.aboutPresence = false)
    (registry : t'.toRegistry = t.toRegistry) (clients : SameClients t t') :
    FrameKept info t t' peerSid message := by
  refine ⟨inv, fun uid user known _ => ?_, fun about => ?_, clients, fun about => ?_⟩
  · left
    rw [Tables.remoteUserByUid, registry]
    exact known
  · rw [silent] at about
    cases about
  · rw [silent] at about
    cases about

theorem rooms (inv : t.LinkInvariant info) (silent : message.aboutPresence = false)
    (same : RoomsOnly t t') : FrameKept info t t' peerSid message :=
  quiet (inv.of_same same.topology same.registry same.info) silent same.registry same.clients

/-- A frame about presence or not, if it keeps every user behind another link. -/
theorem users (inv : t'.LinkInvariant info)
    (kept : ∀ uid user, t.remoteUserByUid uid = some user → t.BehindOther peerSid user →
      t.KeepsUser t' uid ∨ t.LosesNick message uid user.nick)
    (clients : SameClients t t') (present : t.KeepsClients t' message) :
    FrameKept info t t' peerSid message := by
  refine ⟨inv, fun uid user known behind => ?_, fun _ => kept, clients, fun _ => present⟩
  cases kept uid user known behind with
  | inl keeps => exact .inl (keeps.record.trans known)
  | inr loses => exact .inr loses

/-- A change of the data of a user the peer may act for. -/
theorem updated (inv : t.LinkInvariant info) {uid : String} (silent : message.aboutPresence = false)
    (authorized : t.remoteUidAuthorized peerSid uid = true) {change : RemoteUser → RemoteUser}
    (keepsKeys : ∀ user, (change user).uid = user.uid ∧ (change user).nick = user.nick) :
    FrameKept info t { t with toRegistry := t.toRegistry.update uid change } peerSid message := by
  refine ⟨inv.updated uid keepsKeys, fun other user known behind => ?_, fun about => ?_, .of_locals rfl,
    fun _ => .of_locals rfl (.refl _)⟩
  · have different := behind.ne_of_authorized known authorized
    exact .inl ((Tables.KeepsUser.updated inv.registry different change).record.trans known)
  · rw [silent] at about
    cases about

/-- The departure of a user the peer may act for. -/
theorem departed (inv : t.LinkInvariant info) {uid : String}
    (authorized : t.remoteUidAuthorized peerSid uid = true) :
    FrameKept info t (t.departed uid) peerSid message := by
  refine users (inv.departed uid) (fun other user known behind => ?_) (.of_locals rfl) (.departed t uid)
  exact .inl (.departed inv.registry (behind.ne_of_authorized known authorized))

/-! ## Topology -/

/-- The loss of servers whose users are not behind another link. -/
theorem lost (inv : t.LinkInvariant info) {topology : Topology} {uids : List String}
    (inv' : ({ t with toTopology := topology }.departedAll uids).LinkInvariant info)
    (notOthers : ∀ uid user, t.remoteUserByUid uid = some user → t.BehindOther peerSid user → uid ∉ uids) :
    FrameKept info t ({ t with toTopology := topology }.departedAll uids) peerSid message := by
  have clients : SameClients t ({ t with toTopology := topology }.departedAll uids) :=
    .of_locals (Tables.departedAll_toLocals _ uids)
  have members : SameMembers t.channels ({ t with toTopology := topology }.departedAll uids).channels := by
    refine foldl_invariant (I := fun later : Tables => SameMembers t.channels later.channels)
      Tables.departed uids ?_ _ (.refl _)
    intro later uid _ same
    exact same.trans (SameMembers.leaveAll uid _ later.channels)
  refine users inv' (fun uid user known behind => ?_) clients
    (.of_locals (Tables.departedAll_toLocals _ uids) members)
  have registry : ({ t with toTopology := topology } : Tables).RegistryConsistent :=
    inv.registry.of_same rfl rfl
  have kept := Tables.KeepsUser.departedAll registry (notOthers uid user known behind)
  exact .inl ⟨kept.record, kept.members, kept.index⟩

theorem linkDropped (inv : t.LinkInvariant info) (inv' : (t.linkDropped peerSid).LinkInvariant info)
    (linked : peerSid ∈ t.links) : FrameKept info t (t.linkDropped peerSid) peerSid message := by
  refine lost inv inv' fun uid user known ⟨owner, routed, other⟩ listed => ?_
  obtain ⟨folded, held, stored, inside, own⟩ := Tables.mem_uidsBehind.mp listed
  have same : held = user := by
    have found := inv.registry.remoteUserByUid_of_nick stored
    rw [own, known] at found
    exact (Option.some.inj found).symm
  subst same
  cases List.mem_cons.mp inside with
  | inl here =>
    rw [here, inv.linkRouted peerSid linked] at routed
    exact other (Option.some.inj routed).symm
  | inr behind =>
    have owned : t.routeOwner held.serverSid = some peerSid := Topology.mem_routedBehind.mp behind
    rw [owned] at routed
    exact other (Option.some.inj routed).symm

theorem splitOff (inv : t.LinkInvariant info) {sid : String}
    (inv' : (t.splitOff (t.uplinkSubtree sid)).LinkInvariant info) (own : t.SplitsOwn peerSid sid) :
    FrameKept info t (t.splitOff (t.uplinkSubtree sid)) peerSid message := by
  refine lost inv inv' fun uid user known ⟨owner, routed, other⟩ listed => ?_
  obtain ⟨folded, held, stored, inside, ownUid⟩ := Tables.mem_uidsBehind.mp listed
  have found := inv.registry.remoteUserByUid_of_nick stored
  rw [ownUid, known] at found
  cases found
  exact other ((own _ inside).2 owner routed)

end FrameKept

/-! ## The arms of the read loop -/

namespace Server

variable {info : ServerInfo} {s : Server} {peerSid : String} {message : LinkMessage}

theorem receive_applyIf {authorized : Bool} {change : Server → Server}
    (handled : s.handle peerSid message = s.applyIf authorized peerSid message change) :
    (s.receive peerSid message).toTables = if authorized then (change s).toTables else s.toTables := by
  rw [receive, handled, applyIf]
  cases authorized <;> rfl

theorem receive_answerOrForward {result : Server × Option LinkMessage}
    (handled : s.handle peerSid message = answerOrForward peerSid message result) :
    (s.receive peerSid message).toTables = result.1.toTables := by
  rw [receive, handled]
  obtain ⟨after, answer⟩ := result
  cases answer with
  | none => rfl
  | some kill => exact sendToLink_toTables _ _ _

/-- A frame that is applied if the peer may act for its source. -/
theorem applyIf_frameKept (inv : s.LinkInvariant info) (authorized : Bool) (change : Server → Server)
    (handled : s.handle peerSid message = s.applyIf authorized peerSid message change)
    (kept : authorized = true → FrameKept info s.toTables (change s).toTables peerSid message) :
    FrameKept info s.toTables (s.receive peerSid message).toTables peerSid message := by
  rw [receive_applyIf handled]
  cases may : authorized with
  | true => exact kept may
  | false => exact .of_eq inv rfl

/-- A change of a user's own data that is announced. -/
theorem changeRemoteUser_frameKept (inv : s.LinkInvariant info) (silent : message.aboutPresence = false)
    {uid : String} (authorized : s.remoteUidAuthorized peerSid uid = true)
    {change : RemoteUser → RemoteUser} (line : RemoteUser → Line) (cap : Cap)
    (keepsKeys : ∀ user, (change user).uid = user.uid ∧ (change user).nick = user.nick) :
    FrameKept info s.toTables (s.changeRemoteUser uid change line cap).toTables peerSid message := by
  rw [changeRemoteUser_toTables]
  exact .updated inv silent authorized keepsKeys

/-! ### Introductions -/

/-- The introduction of a user for a server the peer may speak for, whose route may be new. -/
theorem introduce_frameKept (topology : Topology) (inv : s.LinkInvariant info)
    (routed : ({ s with toTopology := topology } : Server).LinkInvariant info)
    {sid uid nick user host account realname : String} {hops : UInt64} (admits : s.Admits peerSid sid uid)
    (conforms : s.Conforms peerSid (.uid sid uid hops nick user host account realname)) :
    FrameKept info s.toTables (({ s with toTopology := topology } : Server).acceptRemoteUser
        (introduced sid uid nick user host account realname)).1.toTables peerSid
      (.uid sid uid hops nick user host account realname) := by
  have keeps : s.KeepsUidNick (introduced sid uid nick user host account realname) := by
    intro wins place index
    have taken : s.takes (s.fold nick) uid = true := by
      rw [Tables.takes, Bool.or_eq_true]
      exact .inl wins
    exact ((conforms admits taken).2.1 place index).1
  refine .users (acceptRemoteUser_linkInvariant routed keeps fun taken => (conforms admits taken).1) ?_ ?_ ?_
  · intro other known found behind
    by_cases taken : s.takes (s.fold nick) uid = true ∧ s.fold known.nick = s.fold nick
    · -- the user is filed at the nick that is taken
      right
      obtain ⟨takes, here⟩ := taken
      obtain ⟨-, claimsOwn, yields⟩ := conforms admits takes
      obtain ⟨stored, own⟩ := inv.registry.remoteUserByUid_iff.mp found
      rw [here] at stored
      have different : known.uid ≠ uid := by
        intro same
        have index := inv.registry.indexed stored
        rw [same] at index
        exact (claimsOwn _ index).2 known stored behind
      refine ⟨uid, nick, rfl, ?_, here.symm⟩
      rw [← own]
      exact yields known stored different behind
    · left
      have kept := acceptRemoteUser_keepsUser routed.registry keeps found fun takes here => taken ⟨takes, here⟩
      exact ⟨kept.record, kept.members, kept.index⟩
  · obtain ⟨clients, indexed, identity⟩ := acceptRemoteUser_clients { s with toTopology := topology }
      (introduced sid uid nick user host account realname)
    exact ⟨clients, indexed, identity⟩
  · have claimed : (LinkMessage.uid sid uid hops nick user host account realname).claims = some (uid, nick) := rfl
    obtain ⟨channels, members, stays⟩ := acceptRemoteUser_keepsClients { s with toTopology := topology }
      (introduced sid uid nick user host account realname) claimed
    exact ⟨channels, members, stays⟩

theorem uid_frameKept (inv : s.LinkInvariant info) {sid uid nick user host account realname : String}
    {hops : UInt64} (conforms : s.Conforms peerSid (.uid sid uid hops nick user host account realname)) :
    FrameKept info s.toTables (s.receive peerSid (.uid sid uid hops nick user host account realname)).toTables
      peerSid (.uid sid uid hops nick user host account realname) := by
  cases inNamespace : startsWith uid sid with
  | false =>
    have ignored : s.handle peerSid (.uid sid uid hops nick user host account realname) = (s, .more) := by
      simp only [handle, inNamespace, Bool.not_false, if_true]
    rw [receive, ignored]
    exact .of_eq inv rfl
  | true =>
    -- a refused route ignores the frame, a vacant one is claimed along with it
    obtain ⟨refused, -⟩ | ⟨owned, foreign, route⟩ | ⟨claimed, foreign, vacant⟩ :=
      routeAuthorize_cases s peerSid sid
    · have ignored : s.handle peerSid (.uid sid uid hops nick user host account realname) = (s, .more) := by
        simp only [handle, inNamespace, Bool.not_true, Bool.false_eq_true, if_false, refused]
      rw [receive, ignored]
      exact .of_eq inv rfl
    · have handled : s.handle peerSid (.uid sid uid hops nick user host account realname) =
          answerOrForward peerSid (.uid sid uid hops nick user host account realname)
            (s.acceptRemoteUser (introduced sid uid nick user host account realname)) := by
        simp only [handle, inNamespace, Bool.not_true, Bool.false_eq_true, if_false, owned]
      rw [receive_answerOrForward handled]
      refine introduce_frameKept s.toTopology inv inv ⟨inNamespace, foreign, ?_⟩ conforms
      intro owner routed
      rw [Tables.routeOwner, route] at routed
      exact (Option.some.inj routed).symm
    · have routed := routeAuthorize_linkInvariant inv peerSid sid
      rw [claimed] at routed
      have handled : s.handle peerSid (.uid sid uid hops nick user host account realname) =
          answerOrForward peerSid (.uid sid uid hops nick user host account realname)
            (({ s with remoteRoutes := s.remoteRoutes.insert sid peerSid } : Server).acceptRemoteUser
              (introduced sid uid nick user host account realname)) := by
        simp only [handle, inNamespace, Bool.not_true, Bool.false_eq_true, if_false, claimed]
      rw [receive_answerOrForward handled]
      refine introduce_frameKept ⟨s.links, s.remoteRoutes.insert sid peerSid, s.remoteServers⟩ inv routed
        ⟨inNamespace, foreign, ?_⟩ conforms
      intro owner found
      rw [Tables.routeOwner, vacant] at found
      cases found

/-! ### Nick changes -/

theorem nick_frameKept (inv : s.LinkInvariant info) {uid nick : String}
    (conforms : s.Conforms peerSid (.nick uid nick)) :
    FrameKept info s.toTables (s.receive peerSid (.nick uid nick)).toTables peerSid (.nick uid nick) := by
  cases authorized : s.remoteUidAuthorized peerSid uid with
  | false =>
    have ignored : s.handle peerSid (.nick uid nick) = (s, .more) := by
      simp only [handle, authorized, Bool.false_eq_true, if_false]
    rw [receive, ignored]
    exact .of_eq inv rfl
  | true =>
    have handled : s.handle peerSid (.nick uid nick) =
        answerOrForward peerSid (.nick uid nick) (s.remoteNickChange uid nick) := by
      simp only [handle, authorized, if_true]
    rw [receive_answerOrForward handled]
    refine .users (remoteNickChange_linkInvariant inv uid nick) ?_ (remoteNickChange_clients s uid nick)
      (remoteNickChange_keepsClients s uid nick)
    intro other known found behind
    have different := behind.ne_of_authorized found authorized
    -- only the holder of the new nick can lose by the change
    by_cases taken : s.outranks (s.fold nick) uid = true ∧ s.fold known.nick = s.fold nick
    · right
      obtain ⟨outranks, here⟩ := taken
      obtain ⟨stored, own⟩ := inv.registry.remoteUserByUid_iff.mp found
      rw [here] at stored
      refine ⟨uid, nick, rfl, ?_, here.symm⟩
      rw [← own]
      exact conforms authorized outranks known stored (by rw [own]; exact different) behind
    · left
      exact remoteNickChange_keepsUser inv.registry found different fun outranks here => taken ⟨outranks, here⟩

/-! ### Joins and parts -/

theorem remoteJoin_frameKept (inv : s.LinkInvariant info) {uid : String}
    (authorized : s.remoteUidAuthorized peerSid uid = true) (channelName : String) (status : MemberPrefix)
    (peerTs : UInt64) :
    FrameKept info s.toTables (s.remoteJoin channelName uid status peerTs).toTables peerSid message := by
  cases joiner : s.remoteUserByUid uid with
  | none =>
    rw [remoteJoin_unknown joiner]
    exact .of_eq inv rfl
  | some user =>
    rw [remoteJoin_toTables joiner]
    refine .users (inv.of_same rfl rfl rfl) ?_ (.of_locals rfl) (.of_locals rfl (.joined _ _ _ _ _ _))
    intro other known found behind
    exact .inl (.joined (behind.ne_of_authorized found authorized) channelName user status peerTs)

theorem remotePart_frameKept (inv : s.LinkInvariant info) {uid : String}
    (authorized : s.remoteUidAuthorized peerSid uid = true) (channelName reason : String) :
    FrameKept info s.toTables (s.remotePart channelName uid reason).toTables peerSid message := by
  rw [remotePart_toTables]
  split
  · refine .users (inv.of_same rfl rfl rfl) ?_ (.of_locals rfl) (.of_locals rfl (.dropRemote _ _ _))
    intro other known found behind
    exact .inl (.parted (behind.ne_of_authorized found authorized) (s.fold channelName))
  · exact .of_eq inv rfl

theorem sinvite_frameKept (inv : s.LinkInvariant info) (source target channel : String) :
    FrameKept info s.toTables (s.receive peerSid (.sinvite source target channel)).toTables peerSid
      (.sinvite source target channel) := by
  have handled : ∃ after, s.handle peerSid (.sinvite source target channel) = (after, .more) ∧
      RoomsOnly s.toTables after.toTables := by
    rw [handle]
    split
    · exact ⟨_, rfl, .remoteInvitePending s target channel⟩
    · split
      · exact ⟨_, rfl, .of_eq rfl⟩
      · split
        · exact ⟨_, rfl, .remoteInvite s source target channel⟩
        · split
          · exact ⟨_, rfl, .of_eq (sendTowards_toTables _ _ _)⟩
          · exact ⟨_, rfl, .of_eq rfl⟩
  obtain ⟨after, handled, same⟩ := handled
  rw [receive, handled]
  exact .rooms inv rfl same

/-! ### Servers -/

theorem dropLink_frameKept (inv : s.LinkInvariant info) (linked : peerSid ∈ s.links) :
    FrameKept info s.toTables (s.dropLink peerSid).toTables peerSid message := by
  have dropped := dropLink_linkInvariant inv peerSid
  rw [dropLink_toTables] at dropped ⊢
  exact .linkDropped inv dropped linked

theorem sserver_frameKept (inv : s.LinkInvariant info) (linked : peerSid ∈ s.links)
    (name sid uplink description : String) :
    FrameKept info s.toTables (s.receive peerSid (.sserver name sid uplink description)).toTables peerSid
      (.sserver name sid uplink description) := by
  cases accepted : s.acceptRemoteServer peerSid ⟨sid, name, uplink, description⟩ with
  | ok after =>
    have handled : s.handle peerSid (.sserver name sid uplink description) =
        (after.forwardToLinks peerSid (.sserver name sid uplink description), .more) := by
      simp only [handle, accepted]
    have kept : after.LinkInvariant info := acceptRemoteServer_linkInvariant inv accepted
    rw [receive, handled]
    obtain ⟨-, -, -, rfl⟩ := acceptRemoteServer_ok accepted
    refine .quiet kept rfl ?_ ?_
    · obtain ⟨refused, -⟩ | ⟨owned, -, -⟩ | ⟨claimed, -, -⟩ := routeAuthorize_cases s peerSid sid
      · simp only [refused]
        rfl
      · simp only [owned]
        rfl
      · simp only [claimed]
        rfl
    · obtain ⟨refused, -⟩ | ⟨owned, -, -⟩ | ⟨claimed, -, -⟩ := routeAuthorize_cases s peerSid sid
      · simp only [refused]
        exact .of_locals rfl
      · simp only [owned]
        exact .of_locals rfl
      · simp only [claimed]
        exact .of_locals rfl
  | error reason =>
    have handled : s.handle peerSid (.sserver name sid uplink description) =
        (s.sendToLink peerSid (.error reason), .stop) := by
      simp only [handle, accepted]
    rw [receive, handled]
    dsimp only
    -- a refused server closes the link, with all that is behind it
    have dropped := dropLink_linkInvariant inv peerSid
    rw [dropLink_toTables] at dropped ⊢
    rw [sendToLink_toTables]
    exact .linkDropped inv dropped linked

theorem squit_frameKept (inv : s.LinkInvariant info) (linked : peerSid ∈ s.links) {sid reason : String}
    (conforms : s.Conforms peerSid (.squit sid reason)) :
    FrameKept info s.toTables (s.receive peerSid (.squit sid reason)).toTables peerSid (.squit sid reason) := by
  by_cases itself : sid = peerSid
  · -- a peer that splits itself off ends the link
    have handled : s.handle peerSid (.squit sid reason) = (s, .stop) := by
      simp only [handle, if_pos itself]
    rw [receive, handled]
    exact dropLink_frameKept inv linked
  by_cases behind : s.routeOwner sid = some peerSid
  · have handled : s.handle peerSid (.squit sid reason) =
        ((s.splitRemoteServer sid splitReason).forwardToLinks peerSid (.squit sid reason), .more) := by
      simp only [handle, if_neg itself, if_pos behind]
    -- the subtree has no servers of other links, so that no link is split with it
    have own := conforms behind itself
    rw [receive, handled]
    dsimp only
    rw [forwardToLinks_toTables, splitRemoteServer_toTables]
    refine .splitOff inv ?_ own
    rw [← splitRemoteServer_toTables s sid splitReason]
    refine splitRemoteServer_linkInvariant inv ?_ splitReason
    intro link isLink inside
    obtain ⟨notPeer, owned⟩ := own link inside
    exact notPeer (owned link (inv.linkRouted link isLink))
  · have handled : s.handle peerSid (.squit sid reason) = (s, .more) := by
      simp only [handle, if_neg itself, if_neg behind]
    rw [receive, handled]
    exact .of_eq inv rfl

/-! ### All frames -/

/-- A frame that conforms, of those not trusted whoever sends them, keeps what the checks rely
on and leaves the users behind other links and the local clients alone. -/
theorem receive_frameKept (inv : s.LinkInvariant info) (linked : peerSid ∈ s.links)
    (untrusted : message.networkTrusted = false) (conforms : s.Conforms peerSid message) :
    FrameKept info s.toTables (s.receive peerSid message).toTables peerSid message := by
  cases message with
  | uid sid uid hops nick user host account realname => exact uid_frameKept inv conforms
  | nick uid nick => exact nick_frameKept inv conforms
  | quit uid reason =>
    refine applyIf_frameKept inv (s.remoteUidAuthorized peerSid uid)
      (fun s => s.remoteQuit uid reason) rfl fun authorized => ?_
    rw [remoteQuit_toTables]
    exact .departed inv authorized
  | sjoin channel uid op voice ts =>
    refine applyIf_frameKept inv (s.remoteUidAuthorized peerSid uid)
      (fun s => s.remoteJoin channel uid ⟨op, voice⟩ ts) rfl fun authorized => ?_
    exact remoteJoin_frameKept inv authorized channel ⟨op, voice⟩ ts
  | spart channel uid reason =>
    refine applyIf_frameKept inv (s.remoteUidAuthorized peerSid uid)
      (fun s => s.remotePart channel uid reason) rfl fun authorized => ?_
    exact remotePart_frameKept inv authorized channel reason
  | saway uid reason =>
    refine applyIf_frameKept inv (s.remoteUidAuthorized peerSid uid)
      (fun s => s.remoteAway uid reason) rfl fun authorized => ?_
    exact changeRemoteUser_frameKept inv rfl authorized _ _ fun _ => ⟨rfl, rfl⟩
  | saccount uid account =>
    refine applyIf_frameKept inv (s.remoteUidAuthorized peerSid uid)
      (fun s => s.remoteAccount uid (if account = "*" then none else some account)) rfl fun authorized => ?_
    exact changeRemoteUser_frameKept inv rfl authorized _ _ fun _ => ⟨rfl, rfl⟩
  | ssetname uid realname =>
    refine applyIf_frameKept inv (s.remoteUidAuthorized peerSid uid)
      (fun s => s.remoteSetname uid realname) rfl fun authorized => ?_
    exact changeRemoteUser_frameKept inv rfl authorized _ _ fun _ => ⟨rfl, rfl⟩
  | schghost uid host =>
    refine applyIf_frameKept inv (s.remoteUidAuthorized peerSid uid)
      (fun s => s.remoteChghost uid host) rfl fun authorized => ?_
    exact changeRemoteUser_frameKept inv rfl authorized _ _ fun _ => ⟨rfl, rfl⟩
  | sumode uid flags =>
    refine applyIf_frameKept inv (s.remoteUidAuthorized peerSid uid)
      (fun s => s.remoteUmode uid flags) rfl fun authorized => ?_
    rw [remoteUmode, updateRemoteUser_toTables]
    exact .updated inv rfl authorized (umode_keepsKeys flags.toList)
  | stopic channel source setBy setAt text =>
    refine applyIf_frameKept inv (s.linkSourceAuthorized peerSid source)
      (fun s => s.remoteTopic channel source setBy setAt text) rfl fun _ => ?_
    exact .rooms inv rfl (.remoteTopic s channel source setBy setAt text)
  | smode channel source ts flags args =>
    refine applyIf_frameKept inv (s.linkSourceAuthorized peerSid source)
      (fun s => s.remoteMode channel source ts flags args) rfl fun _ => ?_
    exact .rooms inv rfl (.remoteMode s channel source ts flags args)
  | skick channel source target reason =>
    refine applyIf_frameKept inv (s.linkSourceAuthorized peerSid source)
      (fun s => s.remoteKick channel source target reason) rfl fun _ => ?_
    exact .rooms inv rfl (.remoteKick s channel source target reason)
  | srename source old new reason =>
    refine applyIf_frameKept inv (s.linkSourceAuthorized peerSid source)
      (fun s => s.remoteRename source old new reason) rfl fun _ => ?_
    exact .rooms inv rfl (.remoteRename s source old new reason)
  | sredact source target msgid reason =>
    refine applyIf_frameKept inv (s.linkSourceAuthorized peerSid source)
      (fun s => s.remoteRedact source target msgid reason) rfl fun _ => ?_
    exact .of_eq inv (remoteRedact_toTables s source target msgid reason)
  | sknock source channel mask =>
    refine applyIf_frameKept inv (s.remoteUidAuthorized peerSid source)
      (fun s => s.remoteKnock channel mask) rfl fun _ => ?_
    exact .of_eq inv (remoteKnock_toTables s channel mask)
  | userMessage source target notice msgid timeMs tags text =>
    rw [receive, handle]
    cases s.remoteSourceAuthorized peerSid source with
    | false => exact .of_eq inv rfl
    | true => exact .of_eq inv (deliverRemoteMessage_toTables s source target notice msgid timeMs tags text)
  | tagMessage source target tags =>
    rw [receive, handle]
    cases s.remoteSourceAuthorized peerSid source with
    | false => exact .of_eq inv rfl
    | true => exact .of_eq inv (deliverTagmsg_toTables s peerSid source target tags)
  | chanMessage source channel notice msgid timeMs tags text =>
    rw [receive, handle]
    cases s.remoteSourceAuthorized peerSid source with
    | false => exact .of_eq inv rfl
    | true => exact .of_eq inv (deliverChannelMessage_toTables s peerSid source channel notice msgid timeMs tags text)
  | sinvite source target channel => exact sinvite_frameKept inv source target channel
  | sserver name sid uplink description => exact sserver_frameKept inv linked name sid uplink description
  | squit sid reason => exact squit_frameKept inv linked conforms
  | error reason => exact dropLink_frameKept inv linked
  | ping token => exact .of_eq inv (sendToLink_toTables _ _ _)
  | pass token => exact .of_eq inv rfl
  | server name sid description => exact .of_eq inv rfl
  | pong token => exact .of_eq inv rfl
  -- the frames that only operators of trusted peers may cause
  | kill uid reason => cases untrusted
  | swallops source text => cases untrusted
  | sban add mask setBy reason => cases untrusted

end Server

namespace Server

variable {info : ServerInfo} {s : Server} {peerSid : String}

/-! ### Trusted frames -/

theorem killMatching_linkInvariant (inv : s.LinkInvariant info) (mask reason : String) :
    (s.killMatching mask reason).LinkInvariant info := by
  refine foldl_invariant (I := fun later : Server => later.LinkInvariant info) _ _ ?_ s inv
  intro later id _ holds
  exact holds.of_same rfl rfl rfl

theorem remoteGline_linkInvariant (inv : s.LinkInvariant info) (add : Bool) (mask setBy reason : String) :
    (s.remoteGline add mask setBy reason).LinkInvariant info := by
  rw [remoteGline]
  split
  · have added : (s.addKline mask reason setBy).LinkInvariant info := inv.of_same rfl rfl rfl
    exact killMatching_linkInvariant added mask _
  · exact inv.of_same rfl rfl rfl

theorem kill_linkInvariant (inv : s.LinkInvariant info) (uid reason : String) :
    (s.receive peerSid (.kill uid reason)).LinkInvariant info := by
  rw [receive, handle]
  cases s.ownsLocalUid uid with
  | true => exact killByUid_linkInvariant inv uid reason
  | false =>
    cases s.remoteUidAuthorized peerSid uid with
    | true => exact killByUid_linkInvariant inv uid reason
    | false =>
      cases s.remoteUserByUid uid with
      | none => exact inv
      | some victim =>
        show ((s.sendTowards victim.serverSid (.kill uid reason)).toTables).LinkInvariant info
        rw [sendTowards_toTables]
        exact inv

/-- Whatever a linked peer sends, if it conforms, the checks stay sound. -/
theorem receive_linkInvariant (inv : s.LinkInvariant info) (linked : peerSid ∈ s.links)
    {message : LinkMessage} (conforms : s.Conforms peerSid message) :
    (s.receive peerSid message).LinkInvariant info := by
  cases trusted : message.networkTrusted with
  | false => exact (receive_frameKept inv linked trusted conforms).inv
  | true =>
    cases message with
    | kill uid reason => exact kill_linkInvariant inv uid reason
    | swallops source text => exact inv
    | sban add mask setBy reason => exact remoteGline_linkInvariant inv add mask setBy reason
    | _ => cases trusted

end Server

/-! ## Runs -/

/-- What happens to a server: frames of its peers, links that come and go, the calls that the
loop of a link of the other protocol makes, and changes elsewhere. -/
inductive LinkEvent where
  | tryRegisterLink (handle : LinkHandle)
  | receive (peerSid : String) (message : LinkMessage)
  | dropLink (sid : String)
  | routeAuthorize (peerSid sid : String)
  | acceptRemoteServer (peerSid : String) (server : RemoteServer)
  | splitRemoteServer (sid reason : String)
  | acceptRemoteUser (user : RemoteUser)
  | remoteNickChange (uid newNick : String)
  | remoteQuit (uid reason : String)
  | killByUid (uid reason : String)
  | elsewhere

namespace LinkEvent

def Performs (s s' : Server) : LinkEvent → Prop
  | tryRegisterLink handle => s.tryRegisterLink handle = .ok s'
  | receive peerSid message => peerSid ∈ s.links ∧ s' = s.receive peerSid message
  | dropLink sid => s' = s.dropLink sid
  | routeAuthorize peerSid sid => s' = (s.routeAuthorize peerSid sid).1
  | acceptRemoteServer peerSid server => s.acceptRemoteServer peerSid server = .ok s'
  | splitRemoteServer sid reason => s' = s.splitRemoteServer sid reason
  | acceptRemoteUser user => s' = (s.acceptRemoteUser user).1
  | remoteNickChange uid newNick => s' = (s.remoteNickChange uid newNick).1
  | remoteQuit uid reason => s' = s.remoteQuit uid reason
  | killByUid uid reason => s' = s.killByUid uid reason
  | elsewhere => s'.toTopology = s.toTopology ∧ s'.toRegistry = s.toRegistry ∧ s'.info = s.info

/-- A server that starts without links and remote users. -/
def machine : Machine Server LinkEvent where
  start s := s.toTopology = ⟨∅, ∅, ∅⟩ ∧ s.toRegistry = ⟨∅, ∅⟩
  step s event s' := event.Performs s s'

/-- Frames reach no one else's users; introductions use free UIDs outside our namespace; splits
leave the direct links alone. -/
def Conforms (s : Server) : LinkEvent → Prop
  | receive peerSid message => s.toTables.Conforms peerSid message
  | acceptRemoteUser user => s.KeepsUidNick user ∧
      (s.takes (s.fold user.nick) user.uid = true → s.ownsLocalUid user.uid = false)
  | splitRemoteServer sid _ => ∀ link ∈ s.links, link ∉ s.uplinkSubtree sid
  | _ => True

theorem perform_linkInvariant {info : ServerInfo} {s s' : Server} {event : LinkEvent}
    (inv : s.LinkInvariant info) (conforms : event.Conforms s) (performed : event.Performs s s') :
    s'.LinkInvariant info := by
  cases event with
  | tryRegisterLink handle => exact Server.tryRegisterLink_linkInvariant inv performed
  | receive peerSid message =>
    obtain ⟨linked, rfl⟩ := performed
    exact Server.receive_linkInvariant inv linked conforms
  | dropLink sid =>
    cases performed
    exact Server.dropLink_linkInvariant inv sid
  | routeAuthorize peerSid sid =>
    cases performed
    exact Server.routeAuthorize_linkInvariant inv peerSid sid
  | acceptRemoteServer peerSid server => exact Server.acceptRemoteServer_linkInvariant inv performed
  | splitRemoteServer sid reason =>
    cases performed
    exact Server.splitRemoteServer_linkInvariant inv conforms reason
  | acceptRemoteUser user =>
    cases performed
    exact Server.acceptRemoteUser_linkInvariant inv conforms.1 conforms.2
  | remoteNickChange uid newNick =>
    cases performed
    exact Server.remoteNickChange_linkInvariant inv uid newNick
  | remoteQuit uid reason =>
    cases performed
    exact Server.remoteQuit_linkInvariant inv uid reason
  | killByUid uid reason =>
    cases performed
    exact Server.killByUid_linkInvariant inv uid reason
  | elsewhere =>
    obtain ⟨topology, registry, same⟩ := performed
    exact inv.of_same topology registry same

theorem run_linkInvariant {s : Server} (run : machine.GuardedRun (fun s event => event.Conforms s) s) :
    ∃ info, s.LinkInvariant info := by
  refine run.invariant (I := fun s => ∃ info, s.LinkInvariant info) ?_ ?_
  · rintro state ⟨topology, registry⟩
    refine ⟨state.info, rfl, ?_, ?_, ?_⟩
    · rw [Tables.RegistryConsistent, registry]
      exact .empty
    · rw [topology]
      exact fun sid linked => absurd linked (AList.notMem_empty sid)
    · rw [registry]
      exact fun uid _ => rfl
  · rintro state event next ⟨info, inv⟩ conforms performed
    exact ⟨info, perform_linkInvariant inv conforms performed⟩

/-- In every state of every run whose steps conform, no conforming frame of a peer, of those not
trusted whoever sends them, changes the identity or the presence of a user behind another link
or of a local client, unless it takes that user's nick for a smaller UID. -/
theorem run_originRespected {s : Server} (run : machine.GuardedRun (fun s event => event.Conforms s) s)
    {peerSid : String} (linked : peerSid ∈ s.links) {message : LinkMessage}
    (untrusted : message.networkTrusted = false) (conforms : s.toTables.Conforms peerSid message) :
    s.OriginRespected (s.receive peerSid message).toTables peerSid message := by
  obtain ⟨info, inv⟩ := run_linkInvariant run
  obtain ⟨inv', others⟩ := Server.receive_frameKept inv linked untrusted conforms
  refine ⟨others, fun uid own => ?_⟩
  -- a UID of ours is unbound before and after
  have own' : (s.receive peerSid message).ownsLocalUid uid = true := by
    rw [Tables.ownsLocalUid, Tables.localIdOfUid, inv'.sameInfo, ← inv.sameInfo]
    exact own
  rw [inv'.ownUnbound uid own', inv.ownUnbound uid own]

/-! ### Two peers, the SID of one of which begins with the other's -/

def peerTwo : LinkHandle :=
  ⟨"2", "two.example", "Two"⟩

def peerBeta : LinkHandle :=
  ⟨"2BB", "beta.example", "Beta"⟩

/-- `alpha.example` linked to both. -/
def twoPeers : Server :=
  { Server.alpha with
    links := (∅ : Table String LinkHandle).insert "2" peerTwo |>.insert "2BB" peerBeta
    remoteRoutes := (∅ : Table String String).insert "2" "2" |>.insert "2BB" "2BB" }

/-- `beta.example` introduces Alice. -/
def introduceAlice : LinkMessage :=
  .uid "2BB" "2BBaaa" 0 "alice" "ident" "host.example" "*" "Real Name"

/-- `two.example` introduces a user of its own. -/
def introduceBob : LinkMessage :=
  .uid "2" "2aaa" 0 "bob" "ident" "host.example" "*" "Real Name"

/-- `two.example` introduces Alice's UID as its own. -/
def introduceImpostor : LinkMessage :=
  .uid "2" "2BBaaa" 0 "alice" "impostor" "evil.example" "*" "Impostor"

/-- Alice is known. -/
def aliceKnown : Server :=
  twoPeers.receive "2BB" introduceAlice

/-- `alpha.example` linked to the first of them. -/
def onePeer : Server :=
  { Server.alpha with
    links := (∅ : Table String LinkHandle).insert "2" peerTwo
    remoteRoutes := (∅ : Table String String).insert "2" "2" }

theorem run_twoPeers : machine.GuardedRun (fun s event => event.Conforms s) twoPeers := by
  have none : machine.GuardedRun (fun s event => event.Conforms s) Server.alpha := .start ⟨rfl, rfl⟩
  have one : machine.GuardedRun (fun s event => event.Conforms s) onePeer :=
    .step (e := tryRegisterLink peerTwo) none trivial rfl
  exact .step (e := tryRegisterLink peerBeta) one trivial rfl

theorem run_aliceKnown : machine.GuardedRun (fun s event => event.Conforms s) aliceKnown := by
  refine .step (e := receive "2BB" introduceAlice) run_twoPeers ?_ ⟨by decide, rfl⟩
  intro _ _
  refine ⟨by decide, ?_, ?_⟩
  · intro place index
    cases index
  · intro holder held
    cases held

theorem run_originRespected_bob :
    aliceKnown.OriginRespected (aliceKnown.receive "2" introduceBob).toTables "2" introduceBob := by
  refine run_originRespected run_aliceKnown (by decide) rfl ?_
  intro _ _
  refine ⟨by decide, ?_, ?_⟩
  · intro place index
    cases index
  · intro holder held
    cases held

/-- A peer takes over the UID of a user behind another link. -/
theorem impostor_breaks : ¬ ∀ s, machine.Reachable s → ∀ peerSid ∈ s.links, ∀ message,
    message.networkTrusted = false →
      s.OriginRespected (s.receive peerSid message).toTables peerSid message := by
  intro holds
  have respected := holds aliceKnown run_aliceKnown.reachable "2" (by decide) introduceImpostor rfl
  have alice : aliceKnown.remoteUserByUid "2BBaaa" = some (betaUser "2BBaaa" "alice") := by decide
  have behind : aliceKnown.BehindOther "2" (betaUser "2BBaaa" "alice") := ⟨"2BB", by decide, by decide⟩
  have impostor : (aliceKnown.receive "2" introduceImpostor).remoteUserByUid "2BBaaa" =
      some (Server.introduced "2" "2BBaaa" "alice" "impostor" "evil.example" "*" "Impostor") := by decide
  cases respected.record "2BBaaa" _ alice behind with
  | inl kept =>
    rw [impostor] at kept
    exact absurd kept (by decide)
  | inr loses =>
    obtain ⟨winner, claimed, same, smaller, -⟩ := loses
    cases same
    exact String.lt_irrefl _ smaller

end LinkEvent

end Ferrixd
