import Ferrixd.Invariant.Locals

/-! # Local sessions

The nick registry, the index of ids, the channels and the clients point at each other: what the
commands of clients and the frames of peers do to these references. -/

namespace Ferrixd

/-! ## Local members -/

theorem isMember_iff {channels : Table String ChannelEntry} {folded : String} {id : UInt64} :
    isMember channels folded id = true ↔ ∃ channel, channels.lookup folded = some channel ∧ id ∈ channel.members := by
  rw [isMember, Option.any_eq_true]
  simp only [decide_eq_true_eq]

theorem isMember_dropLocal {channels : Table String ChannelEntry} {key folded : String} {id other : UInt64} :
    isMember (reap (channels.modify key fun channel => channel.dropLocal id) key) folded other = true ↔
      isMember channels folded other = true ∧ ¬ (folded = key ∧ other = id) := by
  rw [SameMembers.reap, isMember, isMember, Table.lookup_modify]
  by_cases here : folded = key
  · rw [if_pos here]
    cases channels.lookup folded with
    | none => simp
    | some channel =>
      simp only [Option.map_some, Option.any_some, decide_eq_true_eq, ChannelEntry.dropLocal, AList.mem_erase]
      tauto
  · rw [if_neg here]
    simp [here]

theorem isMember_addLocal {channels : Table String ChannelEntry} {key folded : String} {id other : UInt64}
    {status : MemberPrefix} (present : key ∈ channels) :
    isMember (channels.modify key fun channel => channel.addLocal id status) folded other = true ↔
      isMember channels folded other = true ∨ (folded = key ∧ other = id) := by
  rw [isMember, isMember, Table.lookup_modify]
  by_cases here : folded = key
  · rw [if_pos here, here]
    cases found : channels.lookup key with
    | none => exact absurd present (AList.lookup_eq_none.mp found)
    | some channel =>
      simp only [Option.map_some, Option.any_some, decide_eq_true_eq, ChannelEntry.addLocal]
      rw [AList.mem_insert]
      tauto
  · rw [if_neg here]
    simp [here]

/-- Leaving several channels, one after the other. -/
theorem isMember_leaveAll {id other : UInt64} {folded : String} (names : List String) :
    ∀ channels : Table String ChannelEntry,
      isMember (names.foldl (fun channels name =>
          reap (channels.modify name fun channel => channel.dropLocal id) name) channels) folded other = true ↔
        isMember channels folded other = true ∧ ¬ (other = id ∧ folded ∈ names) := by
  induction names with
  | nil => simp
  | cons name rest ih =>
    intro channels
    rw [List.foldl_cons, ih, isMember_dropLocal, List.mem_cons]
    tauto

/-- Every channel is stored under its folded name. -/
def AllNamed (fold : String → String) (channels : Table String ChannelEntry) : Prop :=
  ∀ folded channel, channels.lookup folded = some channel → fold channel.name = folded

namespace AllNamed

variable {fold : String → String} {channels : Table String ChannelEntry}

theorem sameRooms (named : AllNamed fold channels) {channels' : Table String ChannelEntry}
    (same : SameRooms fold channels channels') : AllNamed fold channels' := by
  intro folded channel found
  rcases same.named folded channel found with here | ⟨before, stored, name⟩
  · exact here
  · rw [← name]
    exact named folded before stored

theorem modify (named : AllNamed fold channels) {key : String} {change : ChannelEntry → ChannelEntry}
    (name : ∀ channel, fold channel.name = key → fold (change channel).name = key) :
    AllNamed fold (channels.modify key change) := by
  intro folded channel found
  rw [Table.lookup_modify] at found
  split at found
  · rename_i here
    subst here
    obtain ⟨before, stored, rfl⟩ := Option.map_eq_some_iff.mp found
    exact name before (named folded before stored)
  · exact named folded channel found

theorem leave (named : AllNamed fold channels) (key : String) (id : UInt64) :
    AllNamed fold (reap (channels.modify key fun channel => channel.dropLocal id) key) := by
  have dropped : AllNamed fold (channels.modify key fun channel => channel.dropLocal id) :=
    named.modify fun _ name => name
  exact dropped.sameRooms (.reap _ key)

theorem leaveAll (named : AllNamed fold channels) (id : UInt64) (names : List String) :
    AllNamed fold (names.foldl (fun channels name =>
      reap (channels.modify name fun channel => channel.dropLocal id) name) channels) :=
  foldl_invariant (I := AllNamed fold) _ names (fun _ name _ named => named.leave name id) channels named

end AllNamed

/-! ## The invariant -/

/-- The nick registry, the index and the channels agree with the clients.  `connected` are the
ids of the open connections. -/
structure LocalConsistent (t : Tables) (connected : List UInt64) : Prop where
  holds : ∀ folded id, t.clients.lookup folded = some id →
    id ∈ connected ∧ (t.entry id).nick ≠ "*" ∧ t.fold (t.entry id).nick = folded
  occupies : ∀ id ∈ connected, (t.entry id).nick ≠ "*" →
    t.clients.lookup (t.fold (t.entry id).nick) = some id ∧ id ∈ t.byId
  memberOf : ∀ folded id, isMember t.channels folded id = true ↔
    id ∈ connected ∧ folded ∈ (t.entry id).channels
  named : AllNamed t.fold t.channels
  joined : ∀ id ∈ connected, (t.entry id).channels ≠ [] → (t.entry id).registered = true
  registered : ∀ id ∈ connected, (t.entry id).registered = true → (t.entry id).nick ≠ "*"
  nonempty : ∀ id ∈ connected, (t.entry id).nick ≠ ""

theorem Tables.entry_insert (t t' : Tables) {id : UInt64} {entry : ClientEntry}
    (stored : t'.entries = t.entries.insert id entry) (other : UInt64) :
    t'.entry other = if other = id then entry else t.entry other := by
  rw [Tables.entry, stored, Table.lookup_insert_if]
  split <;> rfl

theorem SameClients.keeps {t t' : Tables} (same : SameClients t t') (id : UInt64) :
    (t'.entry id).nick = (t.entry id).nick ∧ (t'.entry id).registered = (t.entry id).registered := by
  have identity := same.identity id
  simp only [ClientEntry.identity, ClientEntry.mk.injEq] at identity
  exact ⟨identity.1, identity.2.2.2.2.2.1⟩

/-- Nicks that differ in case at most. -/
structure SameNick (fold : String → String) (nick nick' : String) : Prop where
  folded : fold nick' = fold nick
  unset : nick' = "*" ↔ nick = "*"
  empty : nick' = "" → nick = ""

theorem SameNick.of_eq {fold : String → String} {nick nick' : String} (same : nick' = nick) :
    SameNick fold nick nick' := by
  rw [same]
  exact ⟨rfl, .rfl, id⟩

namespace LocalConsistent

variable {t t' : Tables} {connected : List UInt64}

/-- A member of a channel is indexed by its id. -/
theorem indexed (inv : LocalConsistent t connected) {folded : String} {id : UInt64}
    (member : isMember t.channels folded id = true) : id ∈ t.byId := by
  obtain ⟨isOpen, isIn⟩ := (inv.memberOf folded id).mp member
  have nicked := inv.registered id isOpen (inv.joined id isOpen (List.ne_nil_of_mem isIn))
  exact (inv.occupies id isOpen nicked).2

/-- Changes to the channels and to what the clients know of them. -/
theorem of_sameNicks (inv : LocalConsistent t connected) (info : t'.info = t.info)
    (clients : t'.clients = t.clients) (byId : t'.byId = t.byId)
    (nick : ∀ id, SameNick t.fold (t.entry id).nick (t'.entry id).nick)
    (memberOf : ∀ folded id, isMember t'.channels folded id = true ↔
      id ∈ connected ∧ folded ∈ (t'.entry id).channels)
    (named : AllNamed t.fold t'.channels)
    (joined : ∀ id ∈ connected, (t'.entry id).channels ≠ [] → (t'.entry id).registered = true)
    (registered : ∀ id ∈ connected, (t'.entry id).registered = true → (t.entry id).nick ≠ "*") :
    LocalConsistent t' connected := by
  have fold : t'.fold = t.fold := by
    funext name
    rw [Tables.fold, Tables.fold, info]
  constructor
  case holds =>
    intro folded id found
    rw [clients] at found
    obtain ⟨isOpen, nicked, here⟩ := inv.holds folded id found
    rw [ne_eq, (nick id).unset, fold, (nick id).folded]
    exact ⟨isOpen, nicked, here⟩
  case occupies =>
    intro id isOpen nicked
    rw [ne_eq, (nick id).unset] at nicked
    rw [fold, (nick id).folded, clients, byId]
    exact inv.occupies id isOpen nicked
  case memberOf => exact memberOf
  case named =>
    rw [fold]
    exact named
  case joined => exact joined
  case registered =>
    intro id isOpen isRegistered
    rw [ne_eq, (nick id).unset]
    exact registered id isOpen isRegistered
  case nonempty => exact fun id isOpen empty => inv.nonempty id isOpen ((nick id).empty empty)

/-- Changes to the channels and the channel sets only. -/
theorem of_sameClients (inv : LocalConsistent t connected) (info : t'.info = t.info) (same : SameClients t t')
    (memberOf : ∀ folded id, isMember t'.channels folded id = true ↔
      id ∈ connected ∧ folded ∈ (t'.entry id).channels)
    (named : AllNamed t.fold t'.channels)
    (joined : ∀ id ∈ connected, (t'.entry id).channels ≠ [] → (t.entry id).registered = true) :
    LocalConsistent t' connected := by
  refine inv.of_sameNicks info same.clients same.indexed (fun id => .of_eq (same.keeps id).1) memberOf named ?_ ?_
  · intro id isOpen isIn
    rw [(same.keeps id).2]
    exact joined id isOpen isIn
  · intro id isOpen isRegistered
    rw [(same.keeps id).2] at isRegistered
    exact inv.registered id isOpen isRegistered

theorem undisturbed (inv : LocalConsistent t connected) (same : Undisturbed t t') : LocalConsistent t' connected := by
  refine inv.of_sameClients same.info same.clients ?_ (inv.named.sameRooms same.rooms) ?_
  · intro folded id
    rw [same.rooms.members, same.sets]
    exact inv.memberOf folded id
  · intro id isOpen isIn
    rw [same.sets] at isIn
    exact inv.joined id isOpen isIn

/-! ### Channels -/

/-- A client leaves a channel, or is taken out of it. -/
theorem partedLocal (inv : LocalConsistent t connected) (folded : String) (id : UInt64) :
    LocalConsistent (t.partedLocal folded id) connected := by
  have entry := Tables.entry_insert t (t.partedLocal folded id) rfl
  refine inv.of_sameClients rfl (.partedLocal t folded id) ?_ (inv.named.leave folded id) ?_
  · intro other member
    rw [Tables.partedLocal, isMember_dropLocal, inv.memberOf, ← Tables.partedLocal, entry]
    by_cases same : member = id
    · rw [if_pos same, same]
      simp only [List.mem_filter, bne_iff_ne, ne_eq]
      tauto
    · rw [if_neg same]
      tauto
  · intro other isOpen isIn
    refine inv.joined other isOpen fun none => isIn ?_
    rw [entry]
    split
    · rename_i same
      rw [same] at none
      simp [none]
    · exact none

/-- A registered client enters a channel. -/
theorem entered (inv : LocalConsistent t connected) {folded : String} {id : UInt64} {status : MemberPrefix}
    (present : folded ∈ t.channels) (isOpen : id ∈ connected) (registered : (t.entry id).registered = true) :
    LocalConsistent { t with
      channels := t.channels.modify folded fun channel => channel.addLocal id status
      entries := t.entries.insert id { t.entry id with channels := (t.entry id).channels.insert folded } }
      connected := by
  have entry := Tables.entry_insert t { t with
      channels := t.channels.modify folded fun channel => channel.addLocal id status
      entries := t.entries.insert id { t.entry id with channels := (t.entry id).channels.insert folded } } rfl
  have same : SameClients t { t with
      entries := t.entries.insert id { t.entry id with channels := (t.entry id).channels.insert folded } } :=
    .insert rfl
  refine inv.of_sameClients rfl (same.trans (.of_locals rfl)) ?_ (inv.named.modify fun _ name => name) ?_
  · intro other member
    rw [isMember_addLocal present, inv.memberOf, entry]
    by_cases here : member = id
    · rw [if_pos here, here]
      simp only [List.mem_insert_iff]
      tauto
    · rw [if_neg here]
      tauto
  · intro other isOpen isIn
    rw [entry] at isIn
    split at isIn
    · rename_i here
      rw [here]
      exact registered
    · exact inv.joined other isOpen isIn

end LocalConsistent

/-! ### Renames -/

theorem mem_exchange {old new name : String} {names : List String} :
    name ∈ exchange old new names ↔ name = new ∨ (name ∈ names ∧ name ≠ old) := by
  simp only [exchange, List.mem_insert_iff, List.mem_filter, bne_iff_ne, ne_eq]

namespace Server

/-- Changing the data of several clients, each once. -/
theorem foldl_modifyEntry (change : ClientEntry → ClientEntry) {ids : List UInt64} (distinct : ids.Nodup)
    (id : UInt64) : ∀ s : Server, (ids.foldl (fun s id => s.modifyEntry id change) s).entry id =
      if id ∈ ids then change (s.entry id) else s.entry id := by
  induction ids with
  | nil => exact fun _ => rfl
  | cons first rest ih =>
    intro s
    obtain ⟨notLater, distinctRest⟩ := List.nodup_cons.mp distinct
    have entry := Tables.entry_insert s.toTables (s.modifyEntry first change).toTables rfl id
    rw [List.foldl_cons, ih distinctRest, entry]
    by_cases here : id = first
    · subst here
      simp [notLater]
    · simp [here]

theorem moveRegistration_toLocals (s : Server) (oldFolded newFolded newName : String) :
    (s.moveRegistration oldFolded newFolded newName).toLocals = s.toLocals := by
  rw [moveRegistration]
  split
  · rfl
  · simp only [persistRegistered_toTables, Tables.persisted]
    split <;> rfl

/-- A rename that moves a channel exchanges its name in the sets of its indexed members. -/
theorem renameChannel_entry {s s' : Server} {oldFolded newName : String} {channel : ChannelEntry}
    (renamed : s.renameChannel oldFolded newName = .ok s') (found : s.findChannel oldFolded = some channel)
    (apart : s.fold newName ≠ oldFolded) (id : UInt64) :
    (s'.entry id).channels =
      if id ∈ channel.members ∧ id ∈ s.byId then exchange oldFolded (s.fold newName) (s.entry id).channels
      else (s.entry id).channels := by
  simp only [renameChannel, found, if_neg apart] at renamed
  split at renamed
  · cases renamed
  · cases renamed
    -- only the sets of the members are in the table of clients
    have locals := moveRegistration_toLocals
      (((moveInSets { s with channels :=
          (s.channels.insert (s.fold newName) { channel with name := newName }).erase oldFolded }
        oldFolded (s.fold newName) { channel with name := newName })).emit fun fx =>
          { fx with history := fx.history.renameTarget oldFolded (s.fold newName) })
      oldFolded (s.fold newName) newName
    have changed := foldl_modifyEntry
      (fun entry => { entry with channels := exchange oldFolded (s.fold newName) entry.channels })
      (channel.members.keys_nodup.filter fun id => decide (id ∈ s.byId)) id
      { s with channels :=
        (s.channels.insert (s.fold newName) { channel with name := newName }).erase oldFolded }
    rw [Tables.entry, moveReadMarkers, locals]
    refine (congrArg ClientEntry.channels changed).trans ?_
    simp only [List.mem_filter, decide_eq_true_eq, AList.mem_keys]
    split <;> rfl

/-- A rename that keeps the folded name changes nothing but the display name. -/
theorem renameChannel_undisturbed {s s' : Server} {oldFolded newName : String}
    (renamed : s.renameChannel oldFolded newName = .ok s') (same : s.fold newName = oldFolded) :
    Undisturbed s.toTables s'.toTables := by
  rw [renameChannel] at renamed
  cases found : s.findChannel oldFolded with
  | none => simp [found] at renamed
  | some channel =>
    simp only [found, if_pos same] at renamed
    cases renamed
    refine .of_rooms rfl rfl ⟨.modify fun _ => rfl, fun folded after stored => ?_⟩
    rw [modifyChannel_toTables, Table.lookup_modify] at stored
    split at stored
    · rename_i here
      obtain ⟨before, -, rfl⟩ := Option.map_eq_some_iff.mp stored
      exact .inl (same.trans here.symm)
    · exact .inr ⟨after, stored, rfl⟩

end Server

theorem isMember_moved (channels : Table String ChannelEntry) (oldFolded newFolded folded : String)
    (channel : ChannelEntry) (id : UInt64) :
    isMember ((channels.insert newFolded channel).erase oldFolded) folded id =
      if folded = oldFolded then false
      else if folded = newFolded then decide (id ∈ channel.members)
      else isMember channels folded id := by
  rw [isMember, Table.lookup_erase_if, Table.lookup_insert_if]
  split
  · rfl
  · split <;> rfl

namespace LocalConsistent

variable {t t' : Tables} {s s' : Server} {connected : List UInt64}

/-- The members of the renamed channel know it by its new name. -/
theorem renamedChannel (inv : LocalConsistent s.toTables connected) {oldFolded newName : String}
    (renamed : s.renameChannel oldFolded newName = .ok s') : LocalConsistent s'.toTables connected := by
  have same := SameClients.renamedChannel renamed
  obtain ⟨⟨-, -, info⟩, ⟨sameFold, -⟩ | ⟨channel, found, apart, free, channels, -⟩⟩ :=
    Server.renameChannel_ok renamed
  · exact inv.undisturbed (Server.renameChannel_undisturbed renamed sameFold)
  have members : ∀ id, isMember s.channels oldFolded id = true ↔ id ∈ channel.members := by
    intro id
    rw [isMember, show s.channels.lookup oldFolded = some channel from found]
    simp
  -- nobody can be in the channel of the new name, which does not exist
  have unused : ∀ id ∈ connected, s.fold newName ∉ (s.entry id).channels := by
    intro id isOpen isIn
    obtain ⟨other, stored, -⟩ := isMember_iff.mp ((inv.memberOf (s.fold newName) id).mpr ⟨isOpen, isIn⟩)
    exact free (AList.lookup_isSome.mp (by rw [stored]; rfl))
  have sets := Server.renameChannel_entry renamed found apart
  refine inv.of_sameClients info same ?_ ?_ ?_
  · intro folded id
    rw [channels, isMember_moved]
    by_cases member : id ∈ channel.members
    · -- the members are connected and indexed, so each one's set is changed
      have isIn := (members id).mpr member
      have isOpen := ((inv.memberOf oldFolded id).mp isIn).1
      have changed : (s'.entry id).channels = exchange oldFolded (s.fold newName) (s.entry id).channels := by
        rw [sets, if_pos ⟨member, inv.indexed isIn⟩]
      rw [changed, mem_exchange]
      by_cases old : folded = oldFolded
      · simp [old, apart.symm]
      · by_cases new : folded = s.fold newName
        · simp [new, apart, member, isOpen]
        · rw [if_neg old, if_neg new, inv.memberOf]
          simp [old, new]
    · have kept : (s'.entry id).channels = (s.entry id).channels := by
        rw [sets, if_neg fun both => member both.1]
      rw [kept]
      by_cases old : folded = oldFolded
      · rw [if_pos old, old, ← inv.memberOf, members]
        simp [member]
      · by_cases new : folded = s.fold newName
        · rw [if_neg old, if_pos new, new]
          simp only [member, decide_false, Bool.false_eq_true, false_iff, not_and]
          exact unused id
        · rw [if_neg old, if_neg new, inv.memberOf]
  · intro folded after stored
    rw [channels, Table.lookup_erase_if, Table.lookup_insert_if] at stored
    split at stored
    · cases stored
    · split at stored
      · rename_i here
        cases stored
        exact here.symm
      · exact inv.named folded after stored
  · intro id isOpen isIn
    rw [sets] at isIn
    split at isIn
    · rename_i both
      have isIn := ((inv.memberOf oldFolded id).mp ((members id).mpr both.1)).2
      exact inv.joined id isOpen (List.ne_nil_of_mem isIn)
    · exact inv.joined id isOpen isIn

end LocalConsistent

end Ferrixd
