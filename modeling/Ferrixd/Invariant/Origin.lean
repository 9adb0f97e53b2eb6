import Ferrixd.Invariant.Clients
import Ferrixd.Invariant.Links

/-! # Who may change what over a link

A peer acts only for the users behind it.  The users behind other links and the local clients
keep their identity, and their presence may only be lost to a smaller UID that takes their nick. -/

namespace Ferrixd

/-! ## What a frame may be about -/

namespace LinkMessage

/-- The frames that are trusted whoever sends them. -/
def networkTrusted : LinkMessage → Bool
  | .kill _ _ | .swallops _ _ | .sban _ _ _ _ => true
  | _ => false

/-- The frames about the presence of a user, on the network or in a channel. -/
def aboutPresence : LinkMessage → Bool
  | .uid _ _ _ _ _ _ _ _ | .nick _ _ | .quit _ _ | .sjoin _ _ _ _ _ | .spart _ _ _ => true
  | _ => false

/-- The UID a frame wants a nick for, and the nick. -/
def claims : LinkMessage → Option (String × String)
  | .uid _ claimant _ wanted _ _ _ _ => some (claimant, wanted)
  | .nick claimant wanted => some (claimant, wanted)
  | _ => none

end LinkMessage

namespace Tables

/-- The server of a user is routed through another link. -/
def BehindOther (t : Tables) (peerSid : String) (user : RemoteUser) : Prop :=
  ∃ owner, t.routeOwner user.serverSid = some owner ∧ owner ≠ peerSid

/-- The frame gives the nick to a smaller UID. -/
def LosesNick (t : Tables) (message : LinkMessage) (uid nick : String) : Prop :=
  ∃ winner claimed, message.claims = some (winner, claimed) ∧ winner < uid ∧ t.fold claimed = t.fold nick

/-- The frame gives the nick of a local client to a smaller UID. -/
def ClientLosesNick (t : Tables) (message : LinkMessage) (id : UInt64) : Prop :=
  ∃ winner claimed, message.claims = some (winner, claimed) ∧ winner < t.localUid id ∧
    t.findClient (t.fold claimed) = some id

/-- The registry and the memberships of one remote user are the same. -/
structure KeepsUser (t t' : Tables) (uid : String) : Prop where
  record : t'.remoteUserByUid uid = t.remoteUserByUid uid
  members : ∀ folded, memberAt t'.channels folded uid = memberAt t.channels folded uid
  index : t'.channelsOf uid = t.channelsOf uid

/-- The channels of the local clients are the same, and whoever is asked to go lost its nick. -/
structure KeepsClients (t t' : Tables) (message : LinkMessage) : Prop where
  channels : ∀ id, (t'.entry id).channels = (t.entry id).channels
  members : SameMembers t.channels t'.channels
  stays : ∀ id, (t'.entry id).killReason = (t.entry id).killReason ∨ t.ClientLosesNick message id

/-- What a frame of a peer leaves alone of other users. -/
structure OthersRespected (t t' : Tables) (peerSid : String) (message : LinkMessage) : Prop where
  /-- A user behind another link keeps its record. -/
  record : ∀ uid user, t.remoteUserByUid uid = some user → t.BehindOther peerSid user →
    t'.remoteUserByUid uid = some user ∨ t.LosesNick message uid user.nick
  /-- The frames about presence keep its memberships too. -/
  presence : message.aboutPresence = true → ∀ uid user, t.remoteUserByUid uid = some user →
    t.BehindOther peerSid user → t.KeepsUser t' uid ∨ t.LosesNick message uid user.nick
  /-- The local clients keep their identity. -/
  clients : SameClients t t'
  /-- The frames about presence keep them where they are. -/
  clientPresence : message.aboutPresence = true → t.KeepsClients t' message

/-- What a frame of a peer leaves alone. -/
structure OriginRespected (t t' : Tables) (peerSid : String) (message : LinkMessage) : Prop
    extends OthersRespected t t' peerSid message where
  /-- The UIDs of our namespace stay bound to whom they were. -/
  ownUids : ∀ uid, t.ownsLocalUid uid = true → t'.remoteByUid.lookup uid = t.remoteByUid.lookup uid

/-! ## The condition -/

/-- Whether a peer may introduce a user with this UID for this server. -/
def Admits (t : Tables) (peerSid sid uid : String) : Prop :=
  startsWith uid sid = true ∧ sid ≠ t.info.sid ∧ ∀ owner, t.routeOwner sid = some owner → owner = peerSid

/-- The UID is unbound, or bound at this very nick to a user that is not behind another link. -/
def ClaimsOwn (t : Tables) (peerSid uid folded : String) : Prop :=
  ∀ place, t.remoteByUid.lookup uid = some place → place = folded ∧
    ∀ holder, t.remoteUsers.lookup place = some holder → ¬ t.BehindOther peerSid holder

/-- A user behind another link that holds the nick has a larger UID. -/
def YieldsTo (t : Tables) (peerSid folded uid : String) : Prop :=
  ∀ holder, t.remoteUsers.lookup folded = some holder → holder.uid ≠ uid →
    t.BehindOther peerSid holder → uid < holder.uid

/-- The recorded subtree of a server is behind the peer. -/
def SplitsOwn (t : Tables) (peerSid sid : String) : Prop :=
  ∀ behind ∈ t.uplinkSubtree sid, behind ≠ peerSid ∧
    ∀ owner, t.routeOwner behind = some owner → owner = peerSid

/-- The frames of a peer that reach no one else's users. -/
def Conforms (t : Tables) (peerSid : String) : LinkMessage → Prop
  | .uid sid uid _ nick _ _ _ _ => t.Admits peerSid sid uid → t.takes (t.fold nick) uid = true →
      t.ownsLocalUid uid = false ∧ t.ClaimsOwn peerSid uid (t.fold nick) ∧
        t.YieldsTo peerSid (t.fold nick) uid
  | .nick uid nick => t.remoteUidAuthorized peerSid uid = true →
      t.outranks (t.fold nick) uid = true → t.YieldsTo peerSid (t.fold nick) uid
  | .squit sid _ => t.routeOwner sid = some peerSid → sid ≠ peerSid → t.SplitsOwn peerSid sid
  | _ => True

theorem BehindOther.unauthorized {t : Tables} {peerSid uid : String} {user : RemoteUser}
    (behind : t.BehindOther peerSid user) (known : t.remoteUserByUid uid = some user) :
    t.remoteUidAuthorized peerSid uid = false := by
  obtain ⟨owner, routed, other⟩ := behind
  rw [remoteUidAuthorized, known]
  show t.routedVia peerSid user.serverSid = false
  rw [routedVia, show t.remoteRoutes.lookup user.serverSid = some owner from routed]
  simpa using other

/-- A peer that may act for a UID acts for no user behind another link. -/
theorem BehindOther.ne_of_authorized {t : Tables} {peerSid uid other : String} {user : RemoteUser}
    (behind : t.BehindOther peerSid user) (known : t.remoteUserByUid uid = some user)
    (authorized : t.remoteUidAuthorized peerSid other = true) : uid ≠ other := by
  intro same
  rw [← same, behind.unauthorized known] at authorized
  cases authorized

/-! ## What the operations keep of one remote user -/

namespace KeepsUser

theorem refl (t : Tables) (uid : String) : t.KeepsUser t uid :=
  ⟨rfl, fun _ => rfl, rfl⟩

theorem trans {first second third : Tables} {uid : String} (left : first.KeepsUser second uid)
    (right : second.KeepsUser third uid) : first.KeepsUser third uid :=
  ⟨right.record.trans left.record, fun folded => (right.members folded).trans (left.members folded),
    right.index.trans left.index⟩

theorem of_sameRemote {t t' : Tables} (same : SameRemote t t') (uid : String) : t.KeepsUser t' uid := by
  refine ⟨?_, fun folded => same.members folded uid, ?_⟩
  · rw [remoteUserByUid, same.registry]
    rfl
  · rw [channelsOf, same.index]
    rfl

theorem purged (t : Tables) {uid other : String} (different : uid ≠ other) :
    t.KeepsUser (t.purged other) uid := by
  refine ⟨rfl, fun folded => ?_, ?_⟩
  · show memberAt ((t.channelsOf other).foldl (leave other) t.channels) folded uid = _
    rw [memberAt_leaveAll, if_neg fun both => different both.2]
  · rw [MembershipConsistent.channelsOf_purged, if_neg different]

theorem departed {t : Tables} (registry : t.RegistryConsistent) {uid other : String}
    (different : uid ≠ other) : t.KeepsUser (t.departed other) uid := by
  obtain ⟨-, members, index⟩ := purged t different
  refine ⟨?_, members, index⟩
  rw [registry.remoteUserByUid_departed, if_neg different]

theorem departedAll {t : Tables} (registry : t.RegistryConsistent) {uid : String} {uids : List String}
    (different : uid ∉ uids) : t.KeepsUser (t.departedAll uids) uid := by
  have kept : t.KeepsUser (t.departedAll uids) uid ∧ (t.departedAll uids).RegistryConsistent := by
    refine foldl_invariant (I := fun later : Tables => t.KeepsUser later uid ∧ later.RegistryConsistent)
      Tables.departed uids ?_ t ⟨refl t uid, registry⟩
    intro later other listed both
    have other : uid ≠ other := fun same => different (same ▸ listed)
    exact ⟨both.1.trans (departed both.2 other), both.2.departed _⟩
  exact kept.1

theorem vacate {t : Tables} {folded uid : String}
    (elsewhere : ∀ holder, t.remoteUsers.lookup folded = some holder → holder.uid ≠ uid) :
    t.KeepsUser (t.vacate folded) uid := by
  rw [Tables.vacate]
  split
  · exact ⟨rfl, fun _ => rfl, rfl⟩
  · cases held : t.remoteUsers.lookup folded with
    | none => exact refl t uid
    | some holder => exact purged t (elsewhere holder held).symm

theorem updated {t : Tables} (registry : t.RegistryConsistent) {uid other : String}
    (different : uid ≠ other) (change : RemoteUser → RemoteUser) :
    t.KeepsUser { t with toRegistry := t.toRegistry.update other change } uid := by
  refine ⟨?_, fun _ => rfl, rfl⟩
  rw [registry.remoteUserByUid_updated, if_neg different]

theorem renamed {t : Tables} (registry : t.RegistryConsistent) {uid other newNick : String}
    {old known : RemoteUser} (found : t.remoteUserByUid other = some old)
    (uidFound : t.remoteUserByUid uid = some known) (different : uid ≠ other)
    (elsewhere : t.fold known.nick ≠ t.fold newNick) : t.KeepsUser (t.renamed other newNick old) uid := by
  refine ⟨?_, fun folded => ?_, rfl⟩
  · rw [uidFound]
    exact registry.remoteUserByUid_renamed found uidFound different elsewhere
  · show memberAt ((t.remoteMembershipChannels other).foldl _ t.channels) folded uid = _
    rw [memberAt_renameAll, if_neg fun both => different both.2]

theorem joined {t : Tables} {uid other : String} (different : uid ≠ other) (channelName : String)
    (user : RemoteUser) (status : MemberPrefix) (peerTs : UInt64) :
    t.KeepsUser (t.joined channelName other user status peerTs) uid := by
  refine ⟨rfl, fun folded => ?_, ?_⟩
  · rw [memberAt_joined, if_neg fun both => different both.2]
  · rw [channelsOf_joined, if_neg different]

theorem parted {t : Tables} {uid other : String} (different : uid ≠ other) (folded : String) :
    t.KeepsUser (t.parted folded other) uid := by
  refine ⟨rfl, fun place => ?_, ?_⟩
  · rw [memberAt_parted, if_neg fun both => different both.2]
  · rw [channelsOf_parted, if_neg different]

end KeepsUser

namespace KeepsClients

variable {message : LinkMessage}

/-- The clients' own data is the same, and so are the members of every channel. -/
theorem of_locals {t t' : Tables} (locals : t'.toLocals = t.toLocals)
    (members : SameMembers t.channels t'.channels) : t.KeepsClients t' message := by
  have same : ∀ id, t'.entry id = t.entry id := by
    intro id
    rw [entry, locals]
    rfl
  exact ⟨fun id => by rw [same], members, fun id => .inl (by rw [same])⟩

/-- Afterwards the clients are left alone. -/
theorem before_locals {first second third : Tables} (left : first.KeepsClients second message)
    (locals : third.toLocals = second.toLocals) (members : SameMembers second.channels third.channels) :
    first.KeepsClients third message := by
  have same : ∀ id, third.entry id = second.entry id := by
    intro id
    rw [entry, locals]
    rfl
  exact ⟨fun id => by rw [same, left.channels], left.members.trans members,
    fun id => by rw [same]; exact left.stays id⟩

theorem departed (t : Tables) (uid : String) : t.KeepsClients (t.departed uid) message :=
  of_locals rfl (SameMembers.leaveAll uid _ t.channels)

theorem renamed (t : Tables) (uid newNick : String) (old : RemoteUser) :
    t.KeepsClients (t.renamed uid newNick old) message :=
  of_locals rfl (SameMembers.renameAll uid newNick _ t.channels)

/-- Only a client that loses its nick to a smaller UID is asked to go. -/
theorem vacate {t : Tables} {uid nick : String} (claimed : message.claims = some (uid, nick))
    (wins : t.outranks (t.fold nick) uid = true) : t.KeepsClients (t.vacate (t.fold nick)) message := by
  rw [Tables.vacate]
  cases holder : t.findClient (t.fold nick) with
  | none =>
    cases t.remoteUsers.lookup (t.fold nick) with
    | none => exact of_locals rfl (.refl _)
    | some existing => exact of_locals rfl (SameMembers.leaveAll existing.uid _ t.channels)
  | some localId =>
    rw [outranks, holder] at wins
    -- a local client is killed, which the frame that claims the nick answers for
    have smaller : uid < t.localUid localId := by simpa using wins
    have entries : ∀ id, (t.killed localId "Nick collision").entry id =
        if id = localId then (t.entry localId).requestKill "Nick collision" else t.entry id := by
      intro id
      show ((t.entries.insert localId _).lookup id).getD {} = _
      rw [Table.lookup_insert_if]
      split <;> rfl
    refine ⟨fun id => ?_, .refl _, fun id => ?_⟩
    · rw [entries]
      split
      · rename_i same
        rw [same]
        rfl
      · rfl
    · by_cases same : id = localId
      · right
        rw [same]
        exact ⟨uid, nick, claimed, smaller, holder⟩
      · left
        rw [entries, if_neg same]

end KeepsClients

theorem SameClients.vacate (t : Tables) (folded : String) : SameClients t (t.vacate folded) := by
  rw [Tables.vacate]
  split
  · exact .killed t _ _
  · split <;> exact .of_locals rfl

end Tables

/-! ## Introductions and nick changes -/

namespace Server

/-- An introduction keeps every other user, except at the nick it takes. -/
theorem acceptRemoteUser_keepsUser {s : Server} (registry : s.RegistryConsistent) {user known : RemoteUser}
    (keeps : s.KeepsUidNick user) {uid : String} (found : s.remoteUserByUid uid = some known)
    (elsewhere : s.takes (s.fold user.nick) user.uid = true → s.fold known.nick ≠ s.fold user.nick) :
    s.KeepsUser (s.acceptRemoteUser user).1.toTables uid := by
  obtain ⟨stored, own⟩ := registry.remoteUserByUid_iff.mp found
  by_cases wins : s.outranks (s.fold user.nick) user.uid = true
  · have notHere := elsewhere (by rw [Tables.takes, wins, Bool.true_or])
    -- the holder who goes is another user, as this one is filed elsewhere
    have vacated : s.KeepsUser (s.vacate (s.fold user.nick)) uid := by
      refine .vacate fun holder held same => ?_
      have place := registry.indexed held
      rw [same, ← own, registry.indexed stored] at place
      exact notHere (Option.some.inj place)
    rw [(acceptRemoteUser_wins wins).2]
    refine ⟨?_, vacated.members, vacated.index⟩
    rw [found]
    exact registry.remoteUserByUid_inserted (keeps wins) found notHere
  have loses : s.outranks (s.fold user.nick) user.uid = false := by simpa using wins
  by_cases refreshes : s.refreshes (s.fold user.nick) user.uid = true
  · have notHere := elsewhere (by rw [Tables.takes, refreshes, Bool.or_true])
    rw [acceptRemoteUser_refresh refreshes]
    refine ⟨?_, fun _ => rfl, rfl⟩
    rw [found]
    refine registry.remoteUserByUid_inserted ?_ found notHere
    intro folded index
    rw [Tables.refreshes, Bool.and_eq_true, Option.any_eq_true] at refreshes
    obtain ⟨-, holder, held, same⟩ := refreshes
    have indexed := registry.indexed held
    rw [decide_eq_true_eq.mp same, index] at indexed
    exact Option.some.inj indexed
  · rw [acceptRemoteUser_loses (by simpa using refreshes) loses]
    exact .refl _ _

theorem acceptRemoteUser_clients (s : Server) (user : RemoteUser) :
    SameClients s.toTables (s.acceptRemoteUser user).1.toTables := by
  by_cases wins : s.outranks (s.fold user.nick) user.uid = true
  · rw [(acceptRemoteUser_wins wins).2]
    exact (Tables.SameClients.vacate s.toTables _).trans (.of_locals rfl)
  have loses : s.outranks (s.fold user.nick) user.uid = false := by simpa using wins
  by_cases refreshes : s.refreshes (s.fold user.nick) user.uid = true
  · rw [acceptRemoteUser_refresh refreshes]
    exact .of_locals rfl
  · rw [acceptRemoteUser_loses (by simpa using refreshes) loses]
    exact .of_locals rfl

theorem acceptRemoteUser_keepsClients (s : Server) (user : RemoteUser) {message : LinkMessage}
    (claimed : message.claims = some (user.uid, user.nick)) :
    s.KeepsClients (s.acceptRemoteUser user).1.toTables message := by
  by_cases wins : s.outranks (s.fold user.nick) user.uid = true
  · rw [(acceptRemoteUser_wins wins).2]
    exact (Tables.KeepsClients.vacate claimed wins).before_locals rfl (.refl _)
  have loses : s.outranks (s.fold user.nick) user.uid = false := by simpa using wins
  by_cases refreshes : s.refreshes (s.fold user.nick) user.uid = true
  · rw [acceptRemoteUser_refresh refreshes]
    exact .of_locals rfl (.refl _)
  · rw [acceptRemoteUser_loses (by simpa using refreshes) loses]
    exact .of_locals rfl (.refl _)

/-- A nick change keeps every other user, except at the nick it takes. -/
theorem remoteNickChange_keepsUser {s : Server} (registry : s.RegistryConsistent) {uid other newNick : String}
    {known : RemoteUser} (found : s.remoteUserByUid uid = some known) (different : uid ≠ other)
    (elsewhere : s.outranks (s.fold newNick) other = true → s.fold known.nick ≠ s.fold newNick) :
    s.KeepsUser (s.remoteNickChange other newNick).1.toTables uid := by
  cases changer : s.remoteUserByUid other with
  | none =>
    simp only [remoteNickChange, changer]
    exact .refl _ _
  | some old =>
    obtain ⟨stored, own⟩ := registry.remoteUserByUid_iff.mp found
    obtain ⟨oldStored, oldOwn⟩ := registry.remoteUserByUid_iff.mp changer
    by_cases unchanged : old.nick = newNick
    · simp only [remoteNickChange, changer, if_pos unchanged]
      exact .refl _ _
    -- a change of case stays at the place of the changer, which is not the place of the other
    by_cases sameFold : s.fold newNick = s.fold old.nick
    · rw [remoteNickChange_case changer unchanged sameFold, applyNickChange_toTables]
      refine .renamed registry changer found different fun here => ?_
      rw [here, sameFold, oldStored] at stored
      cases stored
      exact different (own.symm.trans oldOwn)
    by_cases wins : s.outranks (s.fold newNick) other = true
    · obtain ⟨sameRegistry, sameInfo⟩ := Tables.RegistryConsistent.vacate_same s.toTables (s.fold newNick)
      have vacated : s.KeepsUser (s.vacate (s.fold newNick)) uid := by
        refine .vacate fun holder held same => ?_
        have place := registry.indexed held
        rw [same, ← own, registry.indexed stored] at place
        exact elsewhere wins (Option.some.inj place)
      rw [(remoteNickChange_wins changer sameFold wins).2]
      refine vacated.trans ?_
      refine .renamed (registry.of_same sameRegistry sameInfo) ?_ (vacated.record.trans found) different ?_
      · rw [Tables.remoteUserByUid, sameRegistry]
        exact changer
      · rw [Tables.RegistryConsistent.vacate_fold]
        exact elsewhere wins
    · rw [remoteNickChange_loses changer sameFold (by simpa using wins), dropLosingChanger_toTables]
      exact .departed registry different

theorem remoteNickChange_clients (s : Server) (uid newNick : String) :
    SameClients s.toTables (s.remoteNickChange uid newNick).1.toTables := by
  cases changer : s.remoteUserByUid uid with
  | none =>
    simp only [remoteNickChange, changer]
    exact .of_locals rfl
  | some old =>
    by_cases unchanged : old.nick = newNick
    · simp only [remoteNickChange, changer, if_pos unchanged]
      exact .of_locals rfl
    by_cases sameFold : s.fold newNick = s.fold old.nick
    · rw [remoteNickChange_case changer unchanged sameFold, applyNickChange_toTables]
      exact .of_locals rfl
    by_cases wins : s.outranks (s.fold newNick) uid = true
    · rw [(remoteNickChange_wins changer sameFold wins).2]
      exact (Tables.SameClients.vacate s.toTables _).trans (.of_locals rfl)
    · rw [remoteNickChange_loses changer sameFold (by simpa using wins), dropLosingChanger_toTables]
      exact .of_locals rfl

theorem remoteNickChange_keepsClients (s : Server) (uid newNick : String) :
    s.KeepsClients (s.remoteNickChange uid newNick).1.toTables (.nick uid newNick) := by
  cases changer : s.remoteUserByUid uid with
  | none =>
    simp only [remoteNickChange, changer]
    exact .of_locals rfl (.refl _)
  | some old =>
    by_cases unchanged : old.nick = newNick
    · simp only [remoteNickChange, changer, if_pos unchanged]
      exact .of_locals rfl (.refl _)
    by_cases sameFold : s.fold newNick = s.fold old.nick
    · rw [remoteNickChange_case changer unchanged sameFold, applyNickChange_toTables]
      exact .renamed _ _ _ _
    by_cases wins : s.outranks (s.fold newNick) uid = true
    · rw [(remoteNickChange_wins changer sameFold wins).2]
      refine (Tables.KeepsClients.vacate rfl wins).before_locals rfl ?_
      exact SameMembers.renameAll uid newNick _ _
    · rw [remoteNickChange_loses changer sameFold (by simpa using wins), dropLosingChanger_toTables]
      exact .departed _ _

end Server

end Ferrixd
