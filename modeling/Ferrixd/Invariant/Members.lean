import Ferrixd.Invariant.Registry
import Ferrixd.State.Identity
import Ferrixd.State.Modes
import Ferrixd.State.Session

/-! # Remote members

A remote user's memberships are kept in the channels, with a copy of the user's identity, and
in an index by user.  What it means for these to agree with each other and with the registry. -/

namespace Ferrixd

/-! ## Remote members of a channel table -/

/-- What a channel copies of a remote user. -/
structure Identity where
  nick : String
  user : String
  host : String
  serverSid : String
  deriving DecidableEq

def RemoteUser.identity (user : RemoteUser) : Identity :=
  ⟨user.nick, user.user, user.host, user.serverSid⟩

def RemoteMember.identity (member : RemoteMember) : Identity :=
  ⟨member.nick, member.user, member.host, member.serverSid⟩

namespace ChannelEntry

/-- The identity a channel has stored for a remote member. -/
def whoIs (channel : ChannelEntry) (uid : String) : Option Identity :=
  (channel.remoteMembers.lookup uid).map (·.identity)

theorem whoIs_isSome {channel : ChannelEntry} {uid : String} :
    (channel.whoIs uid).isSome = true ↔ uid ∈ channel.remoteMembers := by
  rw [whoIs, Option.isSome_map, AList.lookup_isSome]

theorem whoIs_of_idle {channel : ChannelEntry} (idle : channel.isIdle = true) (uid : String) :
    channel.whoIs uid = none := by
  have empty : channel.remoteMembers.entries.isEmpty = true := by
    simp only [isIdle, Bool.and_eq_true] at idle
    exact idle.1.2
  rw [whoIs, Table.isEmpty_iff.mp empty uid, Option.map_none]

theorem whoIs_dropRemote (channel : ChannelEntry) (uid other : String) :
    (channel.dropRemote uid).whoIs other = if other = uid then none else channel.whoIs other := by
  rw [whoIs, dropRemote, Table.lookup_erase_if]
  split <;> rfl

theorem whoIs_renameRemote (channel : ChannelEntry) (uid newNick other : String) :
    (channel.renameRemote uid newNick).whoIs other =
      if other = uid then (channel.whoIs other).map fun who => { who with nick := newNick }
      else channel.whoIs other := by
  rw [whoIs, renameRemote, Table.lookup_modify]
  split
  · rw [whoIs, Option.map_map, Option.map_map]
    rfl
  · rfl

theorem whoIs_reconciled (channel : ChannelEntry) (peerTs : UInt64) (uid : String) :
    (channel.reconciled peerTs).whoIs uid = channel.whoIs uid := by
  rw [reconciled]
  split
  · rw [whoIs, blanked, Table.lookup_mapVal, Option.map_map]
    rfl
  · rfl

theorem whoIs_addRemote (channel : ChannelEntry) (uid : String) (user : RemoteUser)
    (status : MemberPrefix) (peerTs : UInt64) (other : String) :
    (channel.addRemote uid user status peerTs).whoIs other =
      if other = uid then some user.identity else channel.whoIs other := by
  rw [whoIs, addRemote, Table.lookup_insert_if]
  split <;> rfl

end ChannelEntry

/-- The identity stored for a remote user in a channel, if it is a member. -/
def memberAt (channels : Table String ChannelEntry) (folded uid : String) : Option Identity :=
  (channels.lookup folded).bind fun channel => channel.whoIs uid

theorem memberAt_modify (channels : Table String ChannelEntry) (key : String)
    (change : ChannelEntry → ChannelEntry) (folded uid : String) :
    memberAt (channels.modify key change) folded uid =
      if folded = key then (channels.lookup folded).bind fun channel => (change channel).whoIs uid
      else memberAt channels folded uid := by
  rw [memberAt, Table.lookup_modify]
  split
  · rw [Option.bind_map]
    rfl
  · rfl

/-- Changing anything but the remote members. -/
theorem memberAt_modify_same {channels : Table String ChannelEntry} {key : String}
    {change : ChannelEntry → ChannelEntry}
    (same : ∀ channel, channels.lookup key = some channel →
      ∀ uid, (change channel).whoIs uid = channel.whoIs uid) (folded uid : String) :
    memberAt (channels.modify key change) folded uid = memberAt channels folded uid := by
  rw [memberAt_modify]
  split
  · rename_i here
    rw [memberAt, here]
    cases found : channels.lookup key with
    | none => rfl
    | some channel => exact same channel found uid
  · rfl

/-- A new channel without remote members. -/
theorem memberAt_insert_new {channels : Table String ChannelEntry} {key : String} {channel : ChannelEntry}
    (absent : channels.lookup key = none) (empty : ∀ uid, channel.whoIs uid = none) (folded uid : String) :
    memberAt (channels.insert key channel) folded uid = memberAt channels folded uid := by
  rw [memberAt, memberAt, Table.lookup_insert_if]
  split
  · rename_i here
    rw [here, absent, Option.bind_some, empty]
    rfl
  · rfl

/-- Reaping removes no remote member. -/
theorem memberAt_reap (channels : Table String ChannelEntry) (key folded uid : String) :
    memberAt (reap channels key) folded uid = memberAt channels folded uid := by
  rw [memberAt, memberAt, lookup_reap]
  by_cases same : folded = key
  · subst same
    rw [if_pos rfl]
    cases found : channels.lookup folded with
    | none => rfl
    | some channel =>
      cases idle : channel.isIdle with
      | true => simp [Option.filter, idle, ChannelEntry.whoIs_of_idle idle uid]
      | false => simp [Option.filter, idle]
  · rw [if_neg same]

theorem memberAt_drop (channels : Table String ChannelEntry) (key uid folded other : String) :
    memberAt (channels.modify key fun channel => channel.dropRemote uid) folded other =
      if folded = key ∧ other = uid then none else memberAt channels folded other := by
  rw [memberAt_modify]
  by_cases here : folded = key
  · simp only [if_pos here, ChannelEntry.whoIs_dropRemote]
    by_cases own : other = uid
    · rw [if_pos ⟨here, own⟩]
      simp only [if_pos own, Option.bind_fun_none]
    · rw [if_neg fun both => own both.2]
      simp only [if_neg own]
      rfl
  · rw [if_neg here, if_neg fun both => here both.1]

theorem memberAt_leave (uid : String) (channels : Table String ChannelEntry) (key folded other : String) :
    memberAt (leave uid channels key) folded other =
      if folded = key ∧ other = uid then none else memberAt channels folded other := by
  rw [leave]
  cases found : channels.lookup key with
  | none =>
    by_cases both : folded = key ∧ other = uid
    · rw [if_pos both, both.1, memberAt, found]
      rfl
    · rw [if_neg both]
  | some channel =>
    by_cases member : uid ∈ channel.remoteMembers
    · simp only [if_pos member, memberAt_reap, memberAt_drop]
    · simp only [if_neg member]
      by_cases both : folded = key ∧ other = uid
      · rw [if_pos both, both.1, both.2, memberAt, found, Option.bind_some,
          ChannelEntry.whoIs, AList.lookup_eq_none.mpr member]
        rfl
      · rw [if_neg both]

theorem memberAt_leaveAll (uid : String) (names : List String) (channels : Table String ChannelEntry)
    (folded other : String) :
    memberAt (names.foldl (leave uid) channels) folded other =
      if folded ∈ names ∧ other = uid then none else memberAt channels folded other := by
  induction names generalizing channels with
  | nil => simp
  | cons name rest ih =>
    rw [List.foldl_cons, ih, memberAt_leave]
    by_cases own : other = uid
    · by_cases here : folded = name
      · simp [own, here]
      · simp [own, here]
    · simp [own]

theorem memberAt_renameAll (uid newNick : String) (names : List String)
    (channels : Table String ChannelEntry) (folded other : String) :
    memberAt (names.foldl (fun channels name =>
        channels.modify name fun channel => channel.renameRemote uid newNick) channels) folded other =
      if folded ∈ names ∧ other = uid then
        (memberAt channels folded other).map fun who => { who with nick := newNick }
      else memberAt channels folded other := by
  have one : ∀ (channels : Table String ChannelEntry) (name : String),
      memberAt (channels.modify name fun channel => channel.renameRemote uid newNick) folded other =
        if folded = name ∧ other = uid then
          (memberAt channels folded other).map fun who => { who with nick := newNick }
        else memberAt channels folded other := by
    intro channels name
    rw [memberAt_modify]
    by_cases here : folded = name
    · simp only [if_pos here, ChannelEntry.whoIs_renameRemote]
      by_cases own : other = uid
      · rw [if_pos ⟨here, own⟩, memberAt]
        simp only [if_pos own]
        cases channels.lookup folded <;> rfl
      · rw [if_neg fun both => own both.2]
        simp only [if_neg own]
        rfl
    · rw [if_neg here, if_neg fun both => here both.1]
  induction names generalizing channels with
  | nil => simp
  | cons name rest ih =>
    rw [List.foldl_cons, ih, one]
    by_cases own : other = uid
    · by_cases here : folded = name
      · by_cases again : folded ∈ rest
        · -- renaming twice to the same nick is renaming once
          simp only [own, here, here ▸ again, and_self, if_true, List.mem_cons, true_or, Option.map_map]
          rfl
        · simp [own, here, here ▸ again]
      · simp [own, here]
    · simp [own]

/-! ## The invariant -/

namespace Tables

/-- The folded names of the channels the index lists for a remote user. -/
def channelsOf (t : Tables) (uid : String) : List String :=
  (t.remoteChannels.lookup uid).getD []

end Tables

structure MembershipConsistent (t : Tables) : Prop where
  /-- The index lists exactly the channels a user is a member of. -/
  indexed : ∀ folded uid, (memberAt t.channels folded uid).isSome = true ↔ folded ∈ t.channelsOf uid
  /-- Every member is a registered user, and the copy of its identity is the user's. -/
  current : ∀ folded uid who, memberAt t.channels folded uid = some who →
    ∃ user, t.remoteUserByUid uid = some user ∧ user.identity = who

/-- Tables with the same remote users and the same memberships of them. -/
structure SameRemote (t t' : Tables) : Prop where
  registry : t'.toRegistry = t.toRegistry
  info : t'.info = t.info
  index : t'.remoteChannels = t.remoteChannels
  members : ∀ folded uid, memberAt t'.channels folded uid = memberAt t.channels folded uid

namespace SameRemote

theorem refl (t : Tables) : SameRemote t t :=
  ⟨rfl, rfl, rfl, fun _ _ => rfl⟩

theorem of_eq {t t' : Tables} (same : t' = t) : SameRemote t t' := by
  rw [same]
  exact .refl t

theorem trans {first second third : Tables} (left : SameRemote first second)
    (right : SameRemote second third) : SameRemote first third :=
  ⟨right.registry.trans left.registry, right.info.trans left.info, right.index.trans left.index,
    fun folded uid => (right.members folded uid).trans (left.members folded uid)⟩

theorem membership {t t' : Tables} (same : SameRemote t t') (inv : MembershipConsistent t) :
    MembershipConsistent t' := by
  constructor
  · intro folded uid
    rw [same.members, Tables.channelsOf, same.index]
    exact inv.indexed folded uid
  · intro folded uid who found
    rw [same.members] at found
    rw [Tables.remoteUserByUid, same.registry]
    exact inv.current folded uid who found

theorem registryConsistent {t t' : Tables} (same : SameRemote t t') (inv : t.RegistryConsistent) :
    t'.RegistryConsistent :=
  inv.of_same same.registry same.info

end SameRemote

end Ferrixd
