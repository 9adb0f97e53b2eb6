import Ferrixd.Invariant.Members

/-! # The memberships of remote users stay consistent

They do in every run that neither changes the identity of a member nor takes a user out of
the registry without purging it. -/

namespace Ferrixd

/-! ## The registry by UID -/

namespace Tables.RegistryConsistent

theorem remoteUserByUid_iff {t : Tables} (inv : t.RegistryConsistent) {uid : String} {user : RemoteUser} :
    t.remoteUserByUid uid = some user ↔
      t.remoteUsers.lookup (t.fold user.nick) = some user ∧ user.uid = uid := by
  constructor
  · intro found
    exact (inv.known found).symm
  · intro ⟨stored, own⟩
    rw [Tables.remoteUserByUid, ← own, inv.indexed stored, Option.bind_some, stored]

/-- Whoever has a nick is known by its UID. -/
theorem remoteUserByUid_of_nick {t : Tables} (inv : t.RegistryConsistent) {folded : String}
    {user : RemoteUser} (stored : t.remoteUsers.lookup folded = some user) :
    t.remoteUserByUid user.uid = some user := by
  rw [Tables.remoteUserByUid, inv.indexed stored, Option.bind_some, stored]

/-- A departure is about one UID. -/
theorem remoteUserByUid_departed {t : Tables} (inv : t.RegistryConsistent) (uid other : String) :
    (t.departed uid).remoteUserByUid other = if other = uid then none else t.remoteUserByUid other := by
  show ((t.toRegistry.remoteRemoveByUid uid).remoteByUid.lookup other).bind
    (t.toRegistry.remoteRemoveByUid uid).remoteUsers.lookup = _
  rw [Registry.remoteRemoveByUid]
  cases index : t.remoteByUid.lookup uid with
  | none =>
    show t.remoteUserByUid other = _
    by_cases same : other = uid
    · rw [if_pos same, same, Tables.remoteUserByUid, index]
      rfl
    · rw [if_neg same]
  | some folded =>
    show ((t.remoteByUid.erase uid).lookup other).bind (t.remoteUsers.erase folded).lookup = _
    rw [Table.lookup_erase_if]
    split
    · rfl
    · rename_i different
      rw [Tables.remoteUserByUid]
      cases place : t.remoteByUid.lookup other with
      | none => rfl
      | some otherFolded =>
        have elsewhere : ¬ otherFolded = folded := inv.index_apart index place different
        rw [Option.bind_some, Option.bind_some, Table.lookup_erase_if, if_neg elsewhere]

/-- A change of a user's own data is about one UID. -/
theorem remoteUserByUid_updated {t : Tables} (inv : t.RegistryConsistent) (uid other : String)
    (change : RemoteUser → RemoteUser) :
    ({ t with toRegistry := t.toRegistry.update uid change } : Tables).remoteUserByUid other =
      if other = uid then (t.remoteUserByUid uid).map change else t.remoteUserByUid other := by
  show ((t.toRegistry.update uid change).remoteByUid.lookup other).bind
    (t.toRegistry.update uid change).remoteUsers.lookup = _
  rw [Registry.update]
  cases index : t.remoteByUid.lookup uid with
  | none =>
    show t.remoteUserByUid other = _
    by_cases same : other = uid
    · rw [if_pos same, same, Tables.remoteUserByUid, index]
      rfl
    · rw [if_neg same]
  | some folded =>
    show (t.remoteByUid.lookup other).bind (t.remoteUsers.modify folded change).lookup = _
    split
    · rename_i same
      rw [same, Tables.remoteUserByUid, index, Option.bind_some, Option.bind_some, Table.lookup_modify,
        if_pos rfl]
    · rename_i different
      rw [Tables.remoteUserByUid]
      cases place : t.remoteByUid.lookup other with
      | none => rfl
      | some otherFolded =>
        have elsewhere : ¬ otherFolded = folded := inv.index_apart index place different
        rw [Option.bind_some, Option.bind_some, Table.lookup_modify, if_neg elsewhere]

/-- Filing a user keeps every other user that is not at its nick. -/
theorem remoteUserByUid_inserted {t : Tables} (inv : t.RegistryConsistent) {user known : RemoteUser}
    {uid : String}
    (notElsewhere : ∀ folded, t.remoteByUid.lookup user.uid = some folded → folded = t.fold user.nick)
    (found : t.remoteUserByUid uid = some known) (elsewhere : t.fold known.nick ≠ t.fold user.nick) :
    ({ t with toRegistry := t.toRegistry.remoteInsert (t.fold user.nick) user } : Tables).remoteUserByUid uid =
      some known := by
  obtain ⟨stored, own⟩ := inv.remoteUserByUid_iff.mp found
  have inserted : Tables.RegistryConsistent
      { t with toRegistry := t.toRegistry.remoteInsert (t.fold user.nick) user } :=
    Registry.Consistent.remoteInsert inv notElsewhere
  refine inserted.remoteUserByUid_iff.mpr ⟨?_, own⟩
  show (t.toRegistry.remoteInsert (t.fold user.nick) user).remoteUsers.lookup (t.fold known.nick) = some known
  rw [Registry.lookup_users_insert, if_neg elsewhere, stored]

/-- A nick change keeps every other user that is not at the new nick. -/
theorem remoteUserByUid_renamed {t : Tables} (inv : t.RegistryConsistent) {uid other newNick : String}
    {old known : RemoteUser} (found : t.remoteUserByUid uid = some old)
    (otherFound : t.remoteUserByUid other = some known) (different : other ≠ uid)
    (elsewhere : t.fold known.nick ≠ t.fold newNick) :
    (t.renamed uid newNick old).remoteUserByUid other = some known := by
  obtain ⟨oldStored, oldOwn⟩ := inv.remoteUserByUid_iff.mp found
  obtain ⟨stored, own⟩ := inv.remoteUserByUid_iff.mp otherFound
  have notOld : ¬ t.fold known.nick = t.fold old.nick := by
    intro here
    rw [here, oldStored] at stored
    cases stored
    exact different (own.symm.trans oldOwn)
  refine (inv.renamed newNick found).remoteUserByUid_iff.mpr ⟨?_, own⟩
  show ((⟨t.remoteUsers.erase (t.fold old.nick), t.remoteByUid⟩ : Registry).remoteInsert
    (t.fold newNick) { old with nick := newNick }).remoteUsers.lookup (t.fold known.nick) = some known
  rw [Registry.lookup_users_insert, if_neg elsewhere]
  show (t.remoteUsers.erase (t.fold old.nick)).lookup (t.fold known.nick) = some known
  rw [Table.lookup_erase_if, if_neg notOld, stored]

end Tables.RegistryConsistent

namespace MembershipConsistent

/-- A change of the registry that keeps the identity of every user with memberships. -/
theorem with_registry {t t' : Tables} (inv : MembershipConsistent t) (channels : t'.channels = t.channels)
    (index : t'.remoteChannels = t.remoteChannels)
    (kept : ∀ uid user, t.channelsOf uid ≠ [] → t.remoteUserByUid uid = some user →
      ∃ user', t'.remoteUserByUid uid = some user' ∧ user'.identity = user.identity) :
    MembershipConsistent t' := by
  constructor
  · intro folded uid
    rw [channels, Tables.channelsOf, index]
    exact inv.indexed folded uid
  · intro folded uid who found
    rw [channels] at found
    obtain ⟨user, known, same⟩ := inv.current folded uid who found
    have listed : folded ∈ t.channelsOf uid := (inv.indexed folded uid).mp (by rw [found]; rfl)
    obtain ⟨user', known', same'⟩ := kept uid user (List.ne_nil_of_mem listed) known
    exact ⟨user', known', same'.trans same⟩

theorem memberAt_purged {t : Tables} (inv : MembershipConsistent t) (uid folded other : String) :
    memberAt (t.purged uid).channels folded other =
      if other = uid then none else memberAt t.channels folded other := by
  show memberAt ((t.channelsOf uid).foldl (leave uid) t.channels) folded other = _
  rw [memberAt_leaveAll]
  by_cases own : other = uid
  · subst own
    by_cases listed : folded ∈ t.channelsOf other
    · rw [if_pos ⟨listed, rfl⟩, if_pos rfl]
    · -- by the index, the user is in no channel that is not listed
      rw [if_neg fun both => listed both.1, if_pos rfl, ← Option.not_isSome_iff_eq_none]
      exact fun member => listed ((inv.indexed folded other).mp member)
  · rw [if_neg fun both => own both.2, if_neg own]

theorem channelsOf_purged (t : Tables) (uid other : String) :
    (t.purged uid).channelsOf other = if other = uid then [] else t.channelsOf other := by
  show ((t.remoteChannels.erase uid).lookup other).getD [] = _
  rw [Table.lookup_erase_if]
  split <;> rfl

theorem purged {t : Tables} (inv : MembershipConsistent t) (uid : String) :
    MembershipConsistent (t.purged uid) := by
  constructor
  · intro folded other
    rw [inv.memberAt_purged, channelsOf_purged]
    split
    · simp
    · exact inv.indexed folded other
  · intro folded other who found
    rw [inv.memberAt_purged] at found
    split at found
    · cases found
    · exact inv.current folded other who found

/-! ## Departures -/

theorem departed {t : Tables} (inv : MembershipConsistent t) (registry : t.RegistryConsistent)
    (uid : String) : MembershipConsistent (t.departed uid) := by
  refine (inv.purged uid).with_registry rfl rfl fun other user listed known => ?_
  have different : other ≠ uid := by
    intro same
    rw [channelsOf_purged, if_pos same] at listed
    exact listed rfl
  have kept := registry.remoteUserByUid_departed uid other
  rw [if_neg different] at kept
  exact ⟨user, kept.trans known, rfl⟩

theorem departedAll {t : Tables} (inv : MembershipConsistent t) (registry : t.RegistryConsistent)
    (uids : List String) : MembershipConsistent (t.departedAll uids) :=
  (foldl_invariant (I := fun t : Tables => MembershipConsistent t ∧ t.RegistryConsistent) Tables.departed
    uids (fun _ uid _ both => ⟨both.1.departed both.2 uid, both.2.departed uid⟩) t ⟨inv, registry⟩).1

end MembershipConsistent

/-! ## Introductions and nick changes -/

namespace Tables

/-- If a local client holds the nick, no other remote user that holds it too is in a channel. -/
def VacatesCleanly (t : Tables) (folded uid : String) : Prop :=
  ∀ holder, t.remoteUsers.lookup folded = some holder → holder.uid ≠ uid →
    (t.findClient folded).isSome = true → t.channelsOf holder.uid = []

/-- A re-introduction at the same nick keeps the identity, or the user is in no channel. -/
def RefreshesSafely (t : Tables) (user : RemoteUser) : Prop :=
  ∀ holder, t.remoteUsers.lookup (t.fold user.nick) = some holder → holder.uid = user.uid →
    user.identity = holder.identity ∨ t.channelsOf user.uid = []

/-- What an accepted introduction must satisfy to keep the memberships consistent. -/
def IntroducesSafely (t : Tables) (user : RemoteUser) : Prop :=
  t.KeepsUidNick user ∧
    (t.outranks (t.fold user.nick) user.uid = true → t.VacatesCleanly (t.fold user.nick) user.uid) ∧
    ((t.outranks (t.fold user.nick) user.uid || t.refreshes (t.fold user.nick) user.uid) = true →
      t.RefreshesSafely user)

end Tables

namespace MembershipConsistent

/-- Once a nick is vacated, no other remote user that held it is in a channel. -/
theorem vacate {t : Tables} (inv : MembershipConsistent t) {folded uid : String}
    (clean : t.VacatesCleanly folded uid) :
    MembershipConsistent (t.vacate folded) ∧
      ∀ holder, t.remoteUsers.lookup folded = some holder → holder.uid ≠ uid →
        (t.vacate folded).channelsOf holder.uid = [] := by
  rw [Tables.vacate]
  cases client : t.findClient folded with
  | some localId =>
    refine ⟨(⟨rfl, rfl, rfl, fun _ _ => rfl⟩ : SameRemote t (t.killed localId _)).membership inv, ?_⟩
    intro holder held other
    exact clean holder held other (by rw [client]; rfl)
  | none =>
    cases held : t.remoteUsers.lookup folded with
    | none => exact ⟨inv, fun holder stored => by cases stored⟩
    | some existing =>
      refine ⟨inv.purged existing.uid, fun holder stored _ => ?_⟩
      cases stored
      rw [channelsOf_purged, if_pos rfl]

/-- The vacated memberships are those of the user itself, or fewer than before. -/
theorem channelsOf_vacate (t : Tables) (folded uid : String) :
    (t.vacate folded).channelsOf uid = t.channelsOf uid ∨ (t.vacate folded).channelsOf uid = [] := by
  rw [Tables.vacate]
  split
  · exact .inl rfl
  · split
    · rw [channelsOf_purged]
      split
      · exact .inr rfl
      · exact .inl rfl
    · exact .inl rfl

/-- Filing a user at its nick, once everyone else there is in no channel. -/
theorem insert {t : Tables} (inv : MembershipConsistent t) (registry : t.RegistryConsistent)
    {user : RemoteUser}
    (notElsewhere : ∀ folded, t.remoteByUid.lookup user.uid = some folded → folded = t.fold user.nick)
    (vacated : ∀ holder, t.remoteUsers.lookup (t.fold user.nick) = some holder → holder.uid ≠ user.uid →
      t.channelsOf holder.uid = [])
    (refresh : t.RefreshesSafely user) :
    MembershipConsistent { t with toRegistry := t.toRegistry.remoteInsert (t.fold user.nick) user } := by
  refine inv.with_registry rfl rfl fun uid known listed found => ?_
  obtain ⟨stored, own⟩ := registry.remoteUserByUid_iff.mp found
  by_cases same : uid = user.uid
  · -- the user itself: it was filed here already, with this identity
    have place := notElsewhere _ (by rw [← same, ← own]; exact registry.indexed stored)
    rw [place] at stored
    have identity := refresh known stored (own.trans same)
    refine ⟨user, ?_, identity.resolve_right (by rw [← same]; exact listed)⟩
    have inserted : Tables.RegistryConsistent
        { t with toRegistry := t.toRegistry.remoteInsert (t.fold user.nick) user } :=
      Registry.Consistent.remoteInsert registry notElsewhere
    refine inserted.remoteUserByUid_iff.mpr ⟨?_, same.symm⟩
    exact AList.lookup_insert _
  · refine ⟨known, registry.remoteUserByUid_inserted notElsewhere found ?_, rfl⟩
    intro here
    rw [here] at stored
    refine listed ?_
    rw [← own]
    exact vacated known stored (by rw [own]; exact same)

/-- A user that takes its own new nick, once everyone else there is in no channel. -/
theorem renamed {t : Tables} (inv : MembershipConsistent t) (registry : t.RegistryConsistent)
    {uid newNick : String} {old : RemoteUser} (found : t.remoteUserByUid uid = some old)
    (vacated : ∀ holder, t.remoteUsers.lookup (t.fold newNick) = some holder → holder.uid ≠ uid →
      t.channelsOf holder.uid = []) :
    MembershipConsistent (t.renamed uid newNick old) := by
  obtain ⟨oldStored, oldOwn⟩ := registry.remoteUserByUid_iff.mp found
  have registry' := registry.renamed newNick found
  have members : ∀ folded other, memberAt (t.renamed uid newNick old).channels folded other =
      if other = uid then (memberAt t.channels folded other).map fun who => { who with nick := newNick }
      else memberAt t.channels folded other := by
    intro folded other
    show memberAt ((t.remoteMembershipChannels uid).foldl _ t.channels) folded other = _
    rw [memberAt_renameAll]
    by_cases own : other = uid
    · rw [if_pos own]
      by_cases listed : folded ∈ t.remoteMembershipChannels uid
      · rw [if_pos ⟨listed, own⟩]
      · rw [if_neg fun both => listed both.1]
        -- a channel that is not listed has no such member to rename
        cases member : memberAt t.channels folded other with
        | none => rfl
        | some who =>
          exfalso
          apply listed
          have inIndex := (inv.indexed folded other).mp (by rw [member]; rfl)
          have present : folded ∈ t.channels := by
            rw [memberAt] at member
            obtain ⟨channel, stored, -⟩ := Option.bind_eq_some_iff.mp member
            exact AList.lookup_isSome.mp (by rw [stored]; rfl)
          rw [Tables.remoteMembershipChannels, List.mem_filter]
          rw [own] at inIndex
          exact ⟨inIndex, by simpa using present⟩
    · rw [if_neg fun both => own both.2, if_neg own]
  constructor
  · intro folded other
    rw [members]
    split
    · rw [Option.isSome_map]
      exact inv.indexed folded other
    · exact inv.indexed folded other
  · intro folded other who member
    rw [members] at member
    by_cases own : other = uid
    · rw [if_pos own] at member
      obtain ⟨before, beforeMember, renamed⟩ := Option.map_eq_some_iff.mp member
      obtain ⟨user, known, same⟩ := inv.current folded other before beforeMember
      rw [own, found] at known
      cases known
      refine ⟨{ old with nick := newNick }, ?_, by rw [← renamed, ← same]; rfl⟩
      rw [own]
      refine registry'.remoteUserByUid_iff.mpr ⟨?_, oldOwn⟩
      exact AList.lookup_insert _
    · rw [if_neg own] at member
      obtain ⟨user, known, same⟩ := inv.current folded other who member
      obtain ⟨stored, userOwn⟩ := registry.remoteUserByUid_iff.mp known
      refine ⟨user, registry.remoteUserByUid_renamed found known own ?_, same⟩
      intro here
      rw [here] at stored
      have listed := (inv.indexed folded other).mp (by rw [member]; rfl)
      rw [← userOwn, vacated user stored (by rw [userOwn]; exact own)] at listed
      cases listed

/-! ## Host changes -/

/-- Rewriting the record of a user whose identity stays, or that is in no channel. -/
theorem update {t : Tables} (inv : MembershipConsistent t) {uid : String} {change : RemoteUser → RemoteUser}
    (safe : t.channelsOf uid = [] ∨ ∀ user, t.remoteUserByUid uid = some user →
      (change user).identity = user.identity)
    (registry : t.RegistryConsistent) :
    MembershipConsistent { t with toRegistry := t.toRegistry.update uid change } := by
  refine inv.with_registry rfl rfl fun other user listed known => ?_
  rw [registry.remoteUserByUid_updated]
  by_cases same : other = uid
  · rw [same] at listed known
    have unchanged := safe.resolve_left listed
    exact ⟨change user, by rw [if_pos same, known, Option.map_some], unchanged user known⟩
  · exact ⟨user, by rw [if_neg same, known], rfl⟩

/-! ## Joins, parts and renames -/

end MembershipConsistent

theorem memberAt_joined (t : Tables) (channelName uid : String) (user : RemoteUser) (status : MemberPrefix)
    (peerTs : UInt64) (folded other : String) :
    memberAt (t.joined channelName uid user status peerTs).channels folded other =
      if folded = t.fold channelName ∧ other = uid then some user.identity
      else memberAt t.channels folded other := by
  by_cases present : t.fold channelName ∈ t.channels
  · simp only [Tables.joined, if_pos present, memberAt_modify]
    by_cases here : folded = t.fold channelName
    · obtain ⟨channel, found⟩ := Option.isSome_iff_exists.mp (AList.lookup_isSome.mpr present)
      rw [if_pos here, here, found, Option.bind_some, ChannelEntry.whoIs_addRemote,
        ChannelEntry.whoIs_reconciled, memberAt, found, Option.bind_some]
      by_cases own : other = uid
      · rw [if_pos own, if_pos ⟨rfl, own⟩]
      · rw [if_neg own, if_neg fun both => own both.2]
    · rw [if_neg here, if_neg fun both => here both.1]
  · simp only [Tables.joined, if_neg present]
    rw [memberAt, Table.lookup_insert_if, memberAt]
    by_cases here : folded = t.fold channelName
    · -- the channel is new: it has no other remote member
      have empty : (t.freshChannel (t.fold channelName) channelName |>.dated peerTs).whoIs other = none := by
        have noMembers : (t.freshChannel (t.fold channelName) channelName |>.dated peerTs).remoteMembers = ∅ := by
          rw [Tables.freshChannel, ChannelEntry.dated]
          split <;> split <;> rfl
        rw [ChannelEntry.whoIs, noMembers]
        rfl
      rw [if_pos here, Option.bind_some, ChannelEntry.whoIs_addRemote, empty, here,
        AList.lookup_eq_none.mpr present]
      by_cases own : other = uid
      · rw [if_pos own, if_pos ⟨rfl, own⟩]
      · rw [if_neg own, if_neg fun both => own both.2]
        rfl
    · rw [if_neg here, if_neg fun both => here both.1]

theorem channelsOf_joined (t : Tables) (channelName uid : String) (user : RemoteUser) (status : MemberPrefix)
    (peerTs : UInt64) (other : String) :
    (t.joined channelName uid user status peerTs).channelsOf other =
      if other = uid then (t.channelsOf uid).insert (t.fold channelName) else t.channelsOf other := by
  show ((t.remoteChannels.insert uid _).lookup other).getD [] = _
  rw [Table.lookup_insert_if]
  split <;> rfl

theorem memberAt_parted (t : Tables) (folded uid other otherUid : String) :
    memberAt (t.parted folded uid).channels other otherUid =
      if other = folded ∧ otherUid = uid then none else memberAt t.channels other otherUid := by
  show memberAt (reap _ folded) other otherUid = _
  rw [memberAt_reap, memberAt_drop]

theorem channelsOf_parted (t : Tables) (folded uid otherUid : String) :
    (t.parted folded uid).channelsOf otherUid =
      if otherUid = uid then (t.channelsOf uid).filter (fun name => name != folded)
      else t.channelsOf otherUid := by
  show ((t.remoteChannels.modify uid _).lookup otherUid).getD [] = _
  rw [Table.lookup_modify]
  split
  · rename_i own
    rw [own, Tables.channelsOf]
    cases t.remoteChannels.lookup uid <;> rfl
  · rfl

namespace MembershipConsistent

theorem joined {t : Tables} (inv : MembershipConsistent t) {uid : String} {user : RemoteUser}
    (known : t.remoteUserByUid uid = some user) (channelName : String) (status : MemberPrefix)
    (peerTs : UInt64) : MembershipConsistent (t.joined channelName uid user status peerTs) := by
  constructor
  · intro folded other
    rw [memberAt_joined, channelsOf_joined]
    by_cases own : other = uid
    · subst own
      rw [if_pos rfl, List.mem_insert_iff]
      by_cases here : folded = t.fold channelName
      · simp [here]
      · rw [if_neg fun both => here both.1]
        simp only [here, false_or]
        exact inv.indexed folded other
    · rw [if_neg fun both => own both.2, if_neg own]
      exact inv.indexed folded other
  · intro folded other who found
    rw [memberAt_joined] at found
    show ∃ known, t.remoteUserByUid other = some known ∧ known.identity = who
    split at found
    · rename_i both
      exact ⟨user, by rw [both.2]; exact known, Option.some.inj found⟩
    · exact inv.current folded other who found

theorem parted {t : Tables} (inv : MembershipConsistent t) (folded uid : String) :
    MembershipConsistent (t.parted folded uid) := by
  constructor
  · intro other otherUid
    rw [memberAt_parted, channelsOf_parted]
    by_cases own : otherUid = uid
    · subst own
      rw [if_pos rfl, List.mem_filter]
      by_cases here : other = folded
      · simp [here]
      · rw [if_neg fun both => here both.1, inv.indexed]
        simp [here]
    · rw [if_neg fun both => own both.2, if_neg own]
      exact inv.indexed other otherUid
  · intro other otherUid who found
    rw [memberAt_parted] at found
    split at found
    · cases found
    · exact inv.current other otherUid who found

theorem mem_exchange {old new : String} {names : List String} {name : String} :
    name ∈ exchange old new names ↔ name = new ∨ (name ∈ names ∧ name ≠ old) := by
  simp [exchange, List.mem_insert_iff]

/-- The index after the name of a channel was exchanged for its members. -/
theorem lookup_exchangeAll (old new : String) (uids : List String) (nodup : uids.Nodup)
    (index : Table String (List String)) (uid : String) :
    (uids.foldl (fun index uid => index.modify uid (exchange old new)) index).lookup uid =
      if uid ∈ uids then (index.lookup uid).map (exchange old new) else index.lookup uid := by
  induction uids generalizing index with
  | nil => simp
  | cons first rest ih =>
    obtain ⟨notAgain, restNodup⟩ := List.nodup_cons.mp nodup
    rw [List.foldl_cons, ih restNodup, Table.lookup_modify]
    by_cases here : uid = first
    · subst here
      simp [notAgain]
    · simp [here]

/-- A renamed channel keeps its members, under the new name in both places. -/
theorem renamedChannel {s s' : Server} (inv : MembershipConsistent s.toTables) {oldFolded newName : String}
    (renamed : s.renameChannel oldFolded newName = .ok s') : MembershipConsistent s'.toTables := by
  obtain ⟨⟨-, registry, info⟩, ⟨-, index, channels⟩ | ⟨channel, found, different, free, channels, index⟩⟩ :=
    Server.renameChannel_ok renamed
  · refine SameRemote.membership ⟨registry, info, index, fun folded uid => ?_⟩ inv
    rw [channels]
    refine memberAt_modify_same ?_ folded uid
    intro channel _ other
    rfl
  -- first where a member is found afterwards, then where the index lists it
  have members : ∀ folded uid, memberAt s'.channels folded uid =
      if folded = oldFolded then none
      else if folded = s.fold newName then memberAt s.channels oldFolded uid
      else memberAt s.channels folded uid := by
    intro folded uid
    have stored : s.channels.lookup oldFolded = some channel := found
    rw [channels, memberAt, Table.lookup_erase_if, Table.lookup_insert_if]
    split
    · rfl
    · split
      · rw [memberAt, stored]
        rfl
      · rfl
  have noneNew : ∀ uid, memberAt s.channels (s.fold newName) uid = none := by
    intro uid
    rw [memberAt, AList.lookup_eq_none.mpr free]
    rfl
  have isMember : ∀ uid, uid ∈ channel.remoteMembers.keys ↔ oldFolded ∈ s.channelsOf uid := by
    intro uid
    have stored : s.channels.lookup oldFolded = some channel := found
    rw [← inv.indexed, memberAt, stored, Option.bind_some, ChannelEntry.whoIs_isSome, AList.mem_keys]
  have listed : ∀ folded uid, folded ∈ s'.channelsOf uid ↔
      if oldFolded ∈ s.channelsOf uid then
        folded = s.fold newName ∨ (folded ∈ s.channelsOf uid ∧ folded ≠ oldFolded)
      else folded ∈ s.channelsOf uid := by
    intro folded uid
    rw [Tables.channelsOf, index, lookup_exchangeAll _ _ _ channel.remoteMembers.keys_nodup]
    by_cases old : oldFolded ∈ s.channelsOf uid
    · rw [if_pos ((isMember uid).mpr old), if_pos old]
      cases entry : s.remoteChannels.lookup uid with
      | none =>
        rw [Tables.channelsOf, entry] at old
        cases old
      | some names =>
        rw [Tables.channelsOf, entry]
        exact mem_exchange
    · rw [if_neg fun member => old ((isMember uid).mp member), if_neg old]
      rfl
  constructor
  · intro folded uid
    rw [members, listed]
    by_cases old : oldFolded ∈ s.channelsOf uid
    · rw [if_pos old]
      by_cases atOld : folded = oldFolded
      · rw [if_pos atOld]
        simp [atOld, Ne.symm different]
      · rw [if_neg atOld]
        by_cases atNew : folded = s.fold newName
        · rw [if_pos atNew, inv.indexed]
          simp [atNew, old]
        · rw [if_neg atNew, inv.indexed]
          simp [atNew, atOld]
    · rw [if_neg old]
      by_cases atOld : folded = oldFolded
      · rw [if_pos atOld, atOld]
        simp [old]
      · rw [if_neg atOld]
        by_cases atNew : folded = s.fold newName
        · rw [if_pos atNew, inv.indexed, atNew, ← inv.indexed (s.fold newName), noneNew]
          simp [old]
        · rw [if_neg atNew, inv.indexed]
  · intro folded uid who found
    rw [members] at found
    rw [Tables.remoteUserByUid, registry]
    split at found
    · cases found
    · split at found
      · exact inv.current oldFolded uid who found
      · exact inv.current folded uid who found

end MembershipConsistent

/-! ## Local clients -/

namespace SameRemote

theorem modifyChannel {t : Tables} {key : String} {change : ChannelEntry → ChannelEntry}
    (same : ∀ channel, t.channels.lookup key = some channel →
      ∀ uid, (change channel).whoIs uid = channel.whoIs uid) :
    SameRemote t { t with channels := t.channels.modify key change } :=
  ⟨rfl, rfl, rfl, memberAt_modify_same same⟩

theorem reaped (t : Tables) (key : String) : SameRemote t { t with channels := reap t.channels key } :=
  ⟨rfl, rfl, rfl, memberAt_reap t.channels key⟩

/-- Changing only the local clients' own data. -/
theorem locals (t : Tables) (locals : Locals) : SameRemote t { t with toLocals := locals } :=
  ⟨rfl, rfl, rfl, fun _ _ => rfl⟩

theorem beginJoin (s : Server) (folded displayName : String) :
    SameRemote s.toTables (s.beginJoin folded displayName).1.toTables := by
  rw [Server.beginJoin]
  cases found : s.findChannel folded with
  | some channel => exact modifyChannel fun _ _ _ => rfl
  | none =>
    refine ⟨rfl, rfl, rfl, memberAt_insert_new found fun uid => ?_⟩
    rw [ChannelEntry.whoIs]
    have noMembers : (s.freshChannel folded displayName).remoteMembers = ∅ := by
      rw [Tables.freshChannel]
      split <;> rfl
    simp only [noMembers]
    rfl

theorem endJoin (s : Server) (folded : String) : SameRemote s.toTables (s.endJoin folded).toTables := by
  rw [Server.endJoin_toTables]
  have finished : SameRemote s.toTables
      { s.toTables with channels := s.channels.modify folded fun channel =>
          { channel with joining := channel.joining - 1 } } :=
    modifyChannel fun _ _ _ => rfl
  exact finished.trans (reaped _ folded)

theorem enterChannel (s : Server) (id : UInt64) (folded : String) (channel : ChannelEntry) (created : Bool) :
    SameRemote s.toTables (s.enterChannel id folded channel created).toTables := by
  rw [Server.enterChannel_toTables]
  have entered : SameRemote s.toTables
      { s.toTables with channels := s.channels.modify folded fun channel =>
          channel.addLocal id (s.joinStatus id folded created) } :=
    modifyChannel fun _ _ _ => rfl
  exact entered.trans (locals _ _)

theorem joinOne (s : Server) (id : UInt64) (name : String) (key : Option String) :
    SameRemote s.toTables (s.joinOne id name key).toTables := by
  simp only [Server.joinOne]
  split
  · exact .refl _
  · split
    · exact .refl _
    · split
      · exact .refl _
      · refine (beginJoin s (s.fold name) name).trans ?_
        generalize s.beginJoin (s.fold name) name = joining
        obtain ⟨s, created⟩ := joining
        dsimp only
        split
        · exact .refl _
        · split
          · refine SameRemote.trans ?_ (endJoin _ _)
            exact .refl _
          · refine .trans ?_ (endJoin _ _)
            refine .trans ?_ (enterChannel _ _ _ _ _)
            cases created with
            | true => exact .refl _
            | false => exact modifyChannel fun _ _ _ => rfl

/-- Taking a local member out of a channel. -/
theorem dropLocal (t : Tables) (folded : String) (id : UInt64) :
    SameRemote t
      { t with channels := reap (t.channels.modify folded fun channel => channel.dropLocal id) folded } := by
  have dropped : SameRemote t
      { t with channels := t.channels.modify folded fun channel => channel.dropLocal id } :=
    modifyChannel fun _ _ _ => rfl
  exact dropped.trans (reaped _ folded)

theorem partedLocal (t : Tables) (folded : String) (id : UInt64) :
    SameRemote t (t.partedLocal folded id) :=
  (dropLocal t folded id).trans (locals _ _)

theorem partOne (s : Server) (id : UInt64) (name : String) (reason : Option String) :
    SameRemote s.toTables (s.partOne id name reason).toTables := by
  simp only [Server.partOne]
  split
  · exact .refl _
  · split
    · exact .refl _
    · rw [Server.reapChannel_toTables]
      exact partedLocal s.toTables (s.fold name) id

theorem leaveOnQuit (id : UInt64) (entry : ClientEntry) (quit : Event) (reason : String)
    (state : Server × List UInt64) (folded : String) :
    SameRemote state.1.toTables (Server.leaveOnQuit id entry quit reason state folded).1.toTables := by
  obtain ⟨s, notified⟩ := state
  simp only [Server.leaveOnQuit]
  split
  · rw [Server.reapChannel_toTables]
    exact reaped _ folded
  · rw [Server.reapChannel_toTables]
    exact dropLocal s.toTables folded id

theorem leaveAllOnQuit (id : UInt64) (entry : ClientEntry) (quit : Event) (reason : String)
    (names : List String) (state : Server × List UInt64) :
    SameRemote state.1.toTables
      (names.foldl (Server.leaveOnQuit id entry quit reason) state).1.toTables := by
  refine foldl_invariant (I := fun later : Server × List UInt64 =>
    SameRemote state.1.toTables later.1.toTables) _ _ ?_ state (.refl _)
  intro later folded _ same
  exact same.trans (leaveOnQuit id entry quit reason later folded)

theorem quitChannels (s : Server) (id : UInt64) (reason : String) :
    SameRemote s.toTables (s.quitChannels id reason).toTables := by
  simp only [Server.quitChannels]
  refine SameRemote.trans ?_ (leaveAllOnQuit id _ _ reason _ (_, [id]))
  exact .of_eq (Server.recordWhowas_toTables s _ _ _ _)

theorem unwatchAll (s : Server) (id : UInt64) (names : List String) :
    SameRemote s.toTables (names.foldl (fun s folded => s.monitorUnwatch folded id) s).toTables := by
  rw [Server.unwatchAll_toTables]
  exact ⟨rfl, rfl, rfl, fun _ _ => rfl⟩

theorem disconnect (s : Server) (id : UInt64) (reason : String) :
    SameRemote s.toTables (s.disconnect id reason).toTables := by
  unfold Server.disconnect
  extract_lets entry named left gone quiet unwatched
  have leaves : SameRemote s.toTables left.toTables := by
    show SameRemote s.toTables (if entry.registered then s.quitChannels id reason else s).toTables
    split
    · exact quitChannels s id reason
    · exact .refl _
  have goes : SameRemote left.toTables gone.toTables := locals _ _
  have quiets : SameRemote gone.toTables quiet.toTables := by
    show SameRemote gone.toTables
      (if entry.registered && named then gone.monitorOffline entry.nick else gone).toTables
    split
    · exact .of_eq (Server.monitorOffline_toTables _ _)
    · exact .refl _
  have unwatches : SameRemote quiet.toTables unwatched.toTables := unwatchAll quiet id entry.monitor
  have released : SameRemote unwatched.toTables (if named && unwatched.clients.lookup
      (unwatched.fold entry.nick) == some id then unwatched.releaseNick (unwatched.fold entry.nick)
      else unwatched).toTables := by
    split
    · exact locals _ _
    · exact .refl _
  exact (((leaves.trans goes).trans quiets).trans unwatches).trans released

theorem closeConnection (s : Server) (id : UInt64) (reason : String) :
    SameRemote s.toTables (s.closeConnection id reason).toTables := by
  simp only [Server.closeConnection]
  refine SameRemote.trans ?_ (disconnect _ id reason)
  split
  · exact .of_eq (Server.withdrawLocal_toTables _ _ _)
  · exact .refl _

end SameRemote

end Ferrixd
