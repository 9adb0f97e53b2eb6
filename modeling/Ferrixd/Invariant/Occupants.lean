import Ferrixd.Invariant.Sessions

/-! # Occupied channels

Who is in a channel, how many joins it counts, and what a change that reaps it if empty leaves. -/

namespace Ferrixd

/-! ## Members and joins in flight -/

/-- A member of a channel: a client, or a user of another server. -/
abbrev Occupant := UInt64 ⊕ String

def ChannelEntry.HasMember (channel : ChannelEntry) : Occupant → Prop
  | .inl id => id ∈ channel.members
  | .inr uid => uid ∈ channel.remoteMembers

/-- Who is a member of the channel filed under a key. -/
def Occupies (channels : Table String ChannelEntry) (folded : String) (who : Occupant) : Prop :=
  ∃ channel, channels.lookup folded = some channel ∧ channel.HasMember who

/-- How many joins in flight the channel filed under a key counts. -/
def joiningAt (channels : Table String ChannelEntry) (folded : String) : Nat :=
  ((channels.lookup folded).map fun channel => channel.joining).getD 0

/-- Every channel has a member or a join in flight. -/
def NoneIdle (channels : Table String ChannelEntry) : Prop :=
  ∀ folded channel, channels.lookup folded = some channel → channel.isIdle = false

theorem ChannelEntry.isIdle_iff {channel : ChannelEntry} :
    channel.isIdle = true ↔ (∀ who, ¬ channel.HasMember who) ∧ channel.joining = 0 := by
  have locals : channel.members.entries.isEmpty = true ↔ ∀ id, id ∉ channel.members := by
    rw [Table.isEmpty_iff]
    exact forall_congr' fun id => AList.lookup_eq_none
  have remotes : channel.remoteMembers.entries.isEmpty = true ↔ ∀ uid, uid ∉ channel.remoteMembers := by
    rw [Table.isEmpty_iff]
    exact forall_congr' fun uid => AList.lookup_eq_none
  simp only [isIdle, Bool.and_eq_true, beq_iff_eq, locals, remotes, Sum.forall, HasMember]

theorem ChannelEntry.busy_of_member {channel : ChannelEntry} {who : Occupant} (member : channel.HasMember who) :
    channel.isIdle = false := by
  rw [← Bool.not_eq_true, isIdle_iff]
  exact fun idle => idle.1 who member

theorem joiningAt_of_lookup {channels : Table String ChannelEntry} {folded : String} {channel : ChannelEntry}
    (found : channels.lookup folded = some channel) : joiningAt channels folded = channel.joining := by
  rw [joiningAt, found]
  rfl

theorem joiningAt_of_absent {channels : Table String ChannelEntry} {folded : String}
    (absent : channels.lookup folded = none) : joiningAt channels folded = 0 := by
  rw [joiningAt, absent]
  rfl

/-! ### A changed channel that is reaped if empty -/

section Reaped

variable {channels : Table String ChannelEntry} {key : String} {change : ChannelEntry → ChannelEntry}

theorem lookup_reaped (folded : String) :
    (reap (channels.modify key change) key).lookup folded =
      if folded = key then ((channels.lookup key).map change).filter fun channel => !channel.isIdle
      else channels.lookup folded := by
  rw [lookup_reap, Table.lookup_modify, Table.lookup_modify, if_pos rfl]
  split <;> rfl

/-- A reaped channel counted no joins. -/
theorem joiningAt_reaped (folded : String) :
    joiningAt (reap (channels.modify key change) key) folded =
      if folded = key then ((channels.lookup key).map fun channel => (change channel).joining).getD 0
      else joiningAt channels folded := by
  rw [joiningAt, lookup_reaped]
  split
  · cases channels.lookup key with
    | none => rfl
    | some channel =>
      rw [Option.map_some, Option.map_some]
      cases idle : (change channel).isIdle with
      | true =>
        have none := (ChannelEntry.isIdle_iff.mp idle).2
        simp [Option.filter, idle, none]
      | false => simp [Option.filter, idle]
  · rfl

theorem noneIdle_reaped (busy : NoneIdle channels) : NoneIdle (reap (channels.modify key change) key) := by
  intro folded channel found
  rw [lookup_reaped] at found
  split at found
  · have kept := (Option.filter_eq_some_iff.mp found).2
    simpa using kept
  · exact busy folded channel found

theorem occupies_reaped {folded : String} {who : Occupant} (occupied : Occupies channels folded who)
    (member : folded = key → ∀ channel : ChannelEntry, channel.HasMember who → (change channel).HasMember who) :
    Occupies (reap (channels.modify key change) key) folded who := by
  obtain ⟨channel, found, isIn⟩ := occupied
  by_cases here : folded = key
  · have still := member here channel isIn
    subst here
    refine ⟨change channel, ?_, still⟩
    rw [lookup_reaped, if_pos rfl, found, Option.map_some]
    simp [Option.filter, ChannelEntry.busy_of_member still]
  · refine ⟨channel, ?_, isIn⟩
    rw [lookup_reaped, if_neg here, found]

end Reaped

/-- Channels that count the same joins, of which none became idle, and that only those in
`leaves` left. -/
structure Tended (leaves : String → Occupant → Prop) (channels channels' : Table String ChannelEntry) : Prop where
  counted : ∀ folded, joiningAt channels' folded = joiningAt channels folded
  busy : NoneIdle channels → NoneIdle channels'
  kept : ∀ folded who, Occupies channels folded who → ¬ leaves folded who → Occupies channels' folded who

namespace Tended

variable {leaves : String → Occupant → Prop}

theorem refl (channels : Table String ChannelEntry) : Tended leaves channels channels :=
  ⟨fun _ => rfl, fun busy => busy, fun _ _ occupied _ => occupied⟩

theorem trans {first second third : Table String ChannelEntry} (left : Tended leaves first second)
    (right : Tended leaves second third) : Tended leaves first third :=
  ⟨fun folded => (right.counted folded).trans (left.counted folded), fun busy => right.busy (left.busy busy),
    fun folded who occupied stays => right.kept folded who (left.kept folded who occupied stays) stays⟩

theorem of_eq {channels channels' : Table String ChannelEntry} (same : channels' = channels) :
    Tended leaves channels channels' := by
  rw [same]
  exact refl _

theorem weaken {more : String → Occupant → Prop} {channels channels' : Table String ChannelEntry}
    (tended : Tended leaves channels channels') (implied : ∀ folded who, leaves folded who → more folded who) :
    Tended more channels channels' :=
  ⟨tended.counted, tended.busy,
    fun folded who occupied stays => tended.kept folded who occupied fun left => stays (implied folded who left)⟩

/-- A change that takes out at most those in `leaves`, with the channel reaped. -/
theorem reaped {channels : Table String ChannelEntry} {key : String} {change : ChannelEntry → ChannelEntry}
    (joining : ∀ channel, (change channel).joining = channel.joining)
    (members : ∀ channel who, channel.HasMember who → ¬ leaves key who → (change channel).HasMember who) :
    Tended leaves channels (reap (channels.modify key change) key) := by
  constructor
  case counted =>
    intro folded
    simp only [joiningAt_reaped, joining]
    split
    · rename_i here
      rw [here, joiningAt]
    · rfl
  case busy => exact noneIdle_reaped
  case kept =>
    intro folded who occupied stays
    refine occupies_reaped occupied fun here channel member => members channel who member ?_
    rw [← here]
    exact stays

theorem reap (channels : Table String ChannelEntry) (key : String) :
    Tended leaves channels (Ferrixd.reap channels key) := by
  have same : channels.modify key (fun channel => channel) = channels := Table.modify_eq_self fun _ _ => rfl
  have tended : Tended leaves channels (Ferrixd.reap (channels.modify key fun channel => channel) key) :=
    reaped (fun _ => rfl) fun _ _ member _ => member
  rw [same] at tended
  exact tended

theorem dropLocal (channels : Table String ChannelEntry) (key : String) (id : UInt64) :
    Tended (fun folded who => folded = key ∧ who = .inl id) channels
      (Ferrixd.reap (channels.modify key fun channel => channel.dropLocal id) key) := by
  refine reaped (fun _ => rfl) fun channel who member stays => ?_
  cases who with
  | inl other => exact AList.mem_erase.mpr ⟨fun same => stays ⟨rfl, by rw [same]⟩, member⟩
  | inr uid => exact member

theorem dropRemote (channels : Table String ChannelEntry) (key uid : String) :
    Tended (fun folded who => folded = key ∧ who = .inr uid) channels
      (Ferrixd.reap (channels.modify key fun channel => channel.dropRemote uid) key) := by
  refine reaped (fun _ => rfl) fun channel who member stays => ?_
  cases who with
  | inl id => exact member
  | inr other => exact AList.mem_erase.mpr ⟨fun same => stays ⟨rfl, by rw [same]⟩, member⟩

/-- A client leaves several channels. -/
theorem leaveAll (id : UInt64) (names : List String) (channels : Table String ChannelEntry) :
    Tended (fun _ who => who = .inl id) channels
      (names.foldl (fun channels name =>
        Ferrixd.reap (channels.modify name fun channel => channel.dropLocal id) name) channels) := by
  refine foldl_invariant (I := Tended (fun _ who => who = .inl id) channels) _ names ?_ channels (refl _)
  intro later name _ tended
  exact tended.trans ((dropLocal later name id).weaken fun _ _ left => left.2)

/-- A change that takes nobody out. -/
theorem modify {channels : Table String ChannelEntry} {key : String} {change : ChannelEntry → ChannelEntry}
    (joining : ∀ channel, (change channel).joining = channel.joining)
    (members : ∀ channel who, channel.HasMember who → (change channel).HasMember who) :
    Tended leaves channels (channels.modify key change) := by
  constructor
  case counted =>
    intro folded
    rw [joiningAt, Table.lookup_modify, joiningAt]
    split
    · cases channels.lookup folded with
      | none => rfl
      | some channel => exact joining channel
    · rfl
  case busy =>
    intro busy folded channel found
    rw [Table.lookup_modify] at found
    split at found
    · obtain ⟨before, stored, rfl⟩ := Option.map_eq_some_iff.mp found
      -- what kept the channel busy is still there
      have wasBusy := busy folded before stored
      rw [← Bool.not_eq_true, ChannelEntry.isIdle_iff] at wasBusy ⊢
      rintro ⟨empty, none⟩
      rw [joining] at none
      exact wasBusy ⟨fun who member => empty who (members before who member), none⟩
    · exact busy folded channel found
  case kept =>
    rintro folded who ⟨channel, found, member⟩ -
    by_cases here : folded = key
    · refine ⟨change channel, ?_, members channel who member⟩
      rw [Table.lookup_modify, if_pos here, found, Option.map_some]
    · refine ⟨channel, ?_, member⟩
      rw [Table.lookup_modify, if_neg here, found]

end Tended

end Ferrixd
