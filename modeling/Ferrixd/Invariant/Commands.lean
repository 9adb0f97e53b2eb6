import Ferrixd.Command.Identity
import Ferrixd.Command.Join
import Ferrixd.Invariant.Sessions

/-! # The commands of clients

Nicks, joins, parts, kicks, renames, connections and departures keep the local registry
consistent, and so does every frame of a peer. -/

namespace Ferrixd

/-! ## Commands -/

namespace Server

/-- A client says who it is, or is refused. -/
theorem cmdUser_cases (s : Server) (id : UInt64) (params : List String) :
    (s.cmdUser id params).toTables = s.toTables ∨ ∃ user realname, (s.cmdUser id params).toTables =
      { s.toTables with entries := s.entries.insert id { s.entry id with user, realname } } := by
  fun_cases cmdUser s id params with
  | case1 => exact .inl rfl
  | case2 => exact .inr ⟨_, _, rfl⟩
  | case3 => exact .inl rfl

/-- A client that is in the channel leaves it. -/
theorem partOne_cases (s : Server) (id : UInt64) (name : String) (reason : Option String) :
    (s.partOne id name reason).toTables = s.toTables ∨
      (s.partOne id name reason).toTables = s.toTables.partedLocal (s.fold name) id := by
  rw [partOne]
  dsimp only
  split
  · exact .inl rfl
  · split
    · exact .inl rfl
    · rw [reapChannel_toTables]
      exact .inr rfl

theorem expel_toTables (s : Server) (id : UInt64) (folded : String) (channel : ChannelEntry)
    (target : UInt64 ⊕ RemoteUser) (reason : String) :
    (s.expel id folded channel target reason).toTables =
      match target with
      | .inl other => s.toTables.partedLocal folded other
      | .inr user => s.toTables.parted folded user.uid := by
  simp only [expel]
  cases target with
  | inl other =>
    simp only [propagateToLinks_toTables, reapChannel_toTables]
    rfl
  | inr user =>
    simp only [propagateToLinks_toTables, reapChannel_toTables]
    rfl

/-- A kick takes the named client or remote user out of the channel, or nobody. -/
theorem kickOne_cases (s : Server) (id : UInt64) (chan targetNick : String) (reason : Option String) :
    (s.kickOne id chan targetNick reason).toTables = s.toTables ∨
      (∃ other, s.findClient (s.fold targetNick) = some other ∧
        (s.kickOne id chan targetNick reason).toTables = s.toTables.partedLocal (s.fold chan) other) ∨
      ∃ user, s.findRemoteUser (s.fold targetNick) = some user ∧
        (s.kickOne id chan targetNick reason).toTables = s.toTables.parted (s.fold chan) user.uid := by
  rw [kickOne]
  dsimp only
  cases s.findChannel (s.fold chan) with
  | none => exact .inl rfl
  | some channel =>
    dsimp only
    -- a local client comes first, and every check that fails leaves the tables
    cases local? : s.findClient (s.fold targetNick) with
    | some other =>
      dsimp only
      split
      · exact .inl rfl
      · split
        · exact .inl rfl
        · split
          · exact .inl rfl
          · exact .inr (.inl ⟨other, rfl, expel_toTables _ _ _ _ _ _⟩)
    | none =>
      cases remote? : s.findRemoteUser (s.fold targetNick) with
      | none => exact .inl rfl
      | some user =>
        simp only [Option.map_some]
        split
        · exact .inl rfl
        · split
          · exact .inl rfl
          · split
            · exact .inl rfl
            · exact .inr (.inr ⟨user, rfl, expel_toTables _ _ _ _ _ _⟩)

/-- Whether a client is an operator of the channel filed under a key. -/
def IsOperator (s : Server) (id : UInt64) (folded : String) : Prop :=
  ∃ channel, s.findChannel folded = some channel ∧ ∃ status, channel.members.lookup id = some status ∧
    status.op = true

/-- An operator's rename to a valid and free name is carried out. -/
theorem cmdRename_cases (s : Server) (id : UInt64) (old newName reason : String) :
    (s.cmdRename id old newName reason).toTables = s.toTables ∨
      (isValidChannel newName = true ∧ s.IsOperator id (s.fold old) ∧
        ∃ renamed, s.renameChannel (s.fold old) newName = .ok renamed ∧
          (s.cmdRename id old newName reason).toTables = renamed.toTables) := by
  rw [cmdRename]
  cases valid : isValidChannel newName with
  | false => exact .inl (fail_toTables _ _ _ _ _ _)
  | true =>
    rw [if_neg (by simp)]
    dsimp only
    cases found : s.findChannel (s.fold old) with
    | none => exact .inl rfl
    | some channel =>
      dsimp only
      cases member : channel.members.lookup id with
      | none => exact .inl rfl
      | some status =>
        dsimp only
        cases op : status.op with
        | false => exact .inl rfl
        | true =>
          rw [if_neg (by simp)]
          cases result : s.renameChannel (s.fold old) newName with
          | ok renamed =>
            refine .inr ⟨rfl, ⟨channel, found, status, member, op⟩, renamed, rfl, ?_⟩
            simp only [propagateToLinks_toTables, broadcastRename_toTables]
          | error kind =>
            cases kind with
            | nameInUse => exact .inl (fail_toTables _ _ _ _ _ _)
            | noSuchChannel => exact .inl rfl

end Server

/-- A valid nick is neither the placeholder of a client without one nor empty. -/
theorem isValidNick_proper {nick : String} (valid : isValidNick nick = true) : nick ≠ "*" ∧ nick ≠ "" := by
  constructor
  · rintro rfl
    exact absurd valid (by decide)
  · rintro rfl
    exact absurd valid (by decide)

theorem fold_eq_empty (mapping : CaseMapping) (text : String) : mapping.fold text = "" ↔ text = "" := by
  constructor
  · intro empty
    have chars := congrArg String.toList empty
    rw [CaseMapping.fold, String.toList_ofList] at chars
    simpa using chars
  · rintro rfl
    rfl

/-- A nick is refused, held by the client already, or free. -/
theorem Server.claimNick_cases (s : Server) (folded : String) (id : UInt64) :
    s.claimNick folded id = (s, false) ∨
      (s.clients.lookup folded = some id ∧ s.claimNick folded id = (s, true)) ∨
      (s.clients.lookup folded = none ∧ s.claimNick folded id =
        ({ s with clients := s.clients.insert folded id, byId := s.byId.insert id }, true)) := by
  rw [claimNick]
  split
  · exact .inl rfl
  · cases held : s.clients.lookup folded with
    | none => exact .inr (.inr ⟨rfl, rfl⟩)
    | some holder =>
      by_cases own : holder = id
      · exact .inr (.inl ⟨by rw [own], by simp [own]⟩)
      · exact .inl (by simp [own])

theorem Server.setNick_toTables (s : Server) (id : UInt64) (nick : String) :
    (s.setNick id nick).toTables =
      { s.toTables with entries := s.entries.insert id { s.entry id with nick } } := rfl

theorem Server.releaseNick_toTables (s : Server) (folded : String) :
    (s.releaseNick folded).toTables = { s.toTables with clients := s.clients.erase folded } := rfl

/-- A nick has nothing to do with the channels. -/
theorem Server.cmdNick_rooms (s : Server) (id : UInt64) (nick : String) :
    (s.cmdNick id nick).toRooms = s.toRooms ∧ (s.cmdNick id nick).info = s.info := by
  rw [Server.cmdNick]
  split
  · exact ⟨rfl, rfl⟩
  extract_lets folded current currentFolded registered renamed
  split
  · split
    · exact ⟨rfl, rfl⟩
    · split
      · rw [Server.propagateNickChange_toTables, Server.broadcastNickChange_toTables]
        exact ⟨rfl, rfl⟩
      · exact ⟨rfl, rfl⟩
  · obtain refused | ⟨-, own⟩ | ⟨-, claimed⟩ := s.claimNick_cases folded id
    · rw [refused]
      exact ⟨rfl, rfl⟩
    · rw [own]
      dsimp only
      split <;> split <;> simp [Server.setNick_toTables, Server.releaseNick_toTables]
    · rw [claimed]
      dsimp only
      split <;> split <;> simp [Server.setNick_toTables, Server.releaseNick_toTables]

namespace Undisturbed

variable (s : Server)

/-- A join in flight is no member yet. -/
theorem beginJoin (name : String) : Undisturbed s.toTables (s.beginJoin (s.fold name) name).1.toTables := by
  rw [Server.beginJoin]
  split
  · have joining : SameRooms s.fold s.channels (s.channels.modify (s.fold name) fun channel =>
        { channel with joining := channel.joining + 1 }) := .modify fun _ _ => ⟨rfl, rfl⟩
    exact of_rooms rfl rfl joining
  · rename_i absent
    have created : SameRooms s.fold s.channels (s.channels.insert (s.fold name)
        { s.freshChannel (s.fold name) name with
          joining := (s.freshChannel (s.fold name) name).joining + 1 }) := by
      refine .insert_new (AList.lookup_eq_none.mp absent) (Server.freshChannel_empty _ _ _).1 ?_
      rw [Tables.freshChannel]
      split <;> rfl
    exact of_rooms rfl rfl created

theorem endJoin (folded : String) : Undisturbed s.toTables (s.endJoin folded).toTables := by
  have joined : SameRooms s.fold s.channels (s.channels.modify folded fun channel =>
      { channel with joining := channel.joining - 1 }) := .modify fun _ _ => ⟨rfl, rfl⟩
  rw [Server.endJoin_toTables]
  exact of_rooms rfl rfl (joined.trans (.reap _ folded))

end Undisturbed

namespace LocalConsistent

variable {s s' : Server} {connected : List UInt64} {id : UInt64}

theorem of_toTables {t t' : Tables} (inv : LocalConsistent t connected) (same : t' = t) :
    LocalConsistent t' connected :=
  inv.undisturbed (.of_eq same)

theorem enterChannel (inv : LocalConsistent s.toTables connected) {folded : String} (present : folded ∈ s.channels)
    (isOpen : id ∈ connected) (registered : (s.entry id).registered = true) (channel : ChannelEntry)
    (created : Bool) : LocalConsistent (s.enterChannel id folded channel created).toTables connected := by
  rw [Server.enterChannel_toTables]
  exact inv.entered present isOpen registered

theorem joinOne (inv : LocalConsistent s.toTables connected) (isOpen : id ∈ connected)
    (registered : (s.entry id).registered = true) (name : String) (key : Option String) :
    LocalConsistent (s.joinOne id name key).toTables connected := by
  rw [Server.joinOne]
  split
  · exact inv.of_toTables rfl
  dsimp only
  split
  · exact inv
  split
  · exact inv.of_toTables rfl
  -- the join marks the channel before its checks, and unmarks it whatever they say
  have begun := Undisturbed.beginJoin s name
  generalize s.beginJoin (s.fold name) name = joining at begun
  obtain ⟨later, created⟩ := joining
  dsimp only at begun ⊢
  cases found : later.findChannel (s.fold name) with
  | none => exact inv.undisturbed begun
  | some channel =>
    dsimp only
    have stillRegistered : (later.entry id).registered = true := by
      rw [(begun.clients.keeps id).2]
      exact registered
    split
    · exact (inv.undisturbed begun).undisturbed (.endJoin (later.numeric id _ _ _) _)
    · refine .undisturbed ?_ (Undisturbed.endJoin _ _)
      have present : s.fold name ∈ later.channels := AList.lookup_isSome.mp (Option.isSome_of_mem found)
      split
      · exact (inv.undisturbed begun).enterChannel present isOpen stillRegistered channel created
      · -- the invitation is used up
        have uninvited : Undisturbed later.toTables (later.modifyChannel (s.fold name) fun channel =>
            { channel with invited := channel.invited.filter fun nick =>
                nick != later.fold (s.entry id).nick }).toTables := by
          have same : SameRooms later.fold later.channels (later.channels.modify (s.fold name) fun channel =>
              { channel with invited := channel.invited.filter fun nick =>
                  nick != later.fold (s.entry id).nick }) := .modify fun _ _ => ⟨rfl, rfl⟩
          exact .of_rooms rfl rfl same
        refine ((inv.undisturbed begun).undisturbed uninvited).enterChannel ?_ isOpen stillRegistered channel created
        exact (AList.mem_keys).mpr (by rw [Server.modifyChannel_toTables]; simpa using (AList.mem_keys).mp present)

theorem partOne (inv : LocalConsistent s.toTables connected) (id : UInt64) (name : String) (reason : Option String) :
    LocalConsistent (s.partOne id name reason).toTables connected := by
  obtain same | parted := s.partOne_cases id name reason
  · exact inv.of_toTables same
  · rw [parted]
    exact inv.partedLocal (s.fold name) id

theorem kickOne (inv : LocalConsistent s.toTables connected) (id : UInt64) (chan targetNick : String)
    (reason : Option String) : LocalConsistent (s.kickOne id chan targetNick reason).toTables connected := by
  obtain same | ⟨other, -, kicked⟩ | ⟨user, -, kicked⟩ := s.kickOne_cases id chan targetNick reason
  · exact inv.of_toTables same
  · rw [kicked]
    exact inv.partedLocal (s.fold chan) other
  · rw [kicked]
    exact inv.undisturbed (.parted s.toTables (s.fold chan) user.uid)

theorem cmdRename (inv : LocalConsistent s.toTables connected) (id : UInt64) (old newName reason : String) :
    LocalConsistent (s.cmdRename id old newName reason).toTables connected := by
  obtain same | ⟨-, -, moved, renamed, same⟩ := s.cmdRename_cases id old newName reason
  · exact inv.of_toTables same
  · exact (inv.renamedChannel renamed).of_toTables same

/-! ### Nicks -/

/-- The new nick is registered, and the one that is given up is not. -/
theorem lookup_renicked {t t' : Tables} (inv : LocalConsistent t connected) {nick : String}
    (free : t.clients.lookup (t.fold nick) = none)
    (clients : t'.clients = if (t.entry id).nick = "*" then t.clients.insert (t.fold nick) id
      else (t.clients.insert (t.fold nick) id).erase (t.fold (t.entry id).nick))
    (isOpen : id ∈ connected) (folded : String) :
    t'.clients.lookup folded =
      if folded = t.fold nick then some id
      else if (t.entry id).nick ≠ "*" ∧ folded = t.fold (t.entry id).nick then none
      else t.clients.lookup folded := by
  rw [clients]
  by_cases fresh : (t.entry id).nick = "*"
  · rw [if_pos fresh, Table.lookup_insert_if]
    simp [fresh]
  · -- the nick given up was occupied, so it is not the free one
    have apart : t.fold (t.entry id).nick ≠ t.fold nick := by
      intro same
      have occupied := (inv.occupies id isOpen fresh).1
      rw [same, free] at occupied
      cases occupied
    rw [if_neg fresh, Table.lookup_erase_if, Table.lookup_insert_if]
    by_cases new : folded = t.fold nick
    · simp [new, apart.symm]
    · simp [new, fresh]

/-- A client takes a free nick and gives up the one it had. -/
theorem renicked {t t' : Tables} (inv : LocalConsistent t connected) {nick : String} (proper : nick ≠ "*")
    (nonempty : nick ≠ "") (free : t.clients.lookup (t.fold nick) = none) (info : t'.info = t.info)
    (entries : t'.entries = t.entries.insert id { t.entry id with nick }) (byId : t'.byId = t.byId.insert id)
    (channels : t'.channels = t.channels)
    (clients : t'.clients = if (t.entry id).nick = "*" then t.clients.insert (t.fold nick) id
      else (t.clients.insert (t.fold nick) id).erase (t.fold (t.entry id).nick))
    (isOpen : id ∈ connected) : LocalConsistent t' connected := by
  have fold : t'.fold = t.fold := by
    funext name
    rw [Tables.fold, Tables.fold, info]
  have entry := Tables.entry_insert t t' entries
  have sets : ∀ other, (t'.entry other).channels = (t.entry other).channels := by
    intro other
    rw [entry]
    split
    · rename_i here
      rw [here]
    · rfl
  have isRegistered : ∀ other, (t'.entry other).registered = (t.entry other).registered := by
    intro other
    rw [entry]
    split
    · rename_i here
      rw [here]
    · rfl
  -- a client that had no nick before has none to give up
  have lookup := inv.lookup_renicked free clients isOpen
  constructor
  case holds =>
    intro folded other found
    rw [lookup] at found
    rw [entry, fold]
    split at found
    · rename_i here
      cases found
      rw [if_pos rfl]
      exact ⟨isOpen, proper, here.symm⟩
    · split at found
      · cases found
      · rename_i kept
        obtain ⟨otherOpen, nicked, here⟩ := inv.holds folded other found
        have different : other ≠ id := by
          intro same
          subst same
          exact kept ⟨nicked, here.symm⟩
        rw [if_neg different]
        exact ⟨otherOpen, nicked, here⟩
  case occupies =>
    intro other otherOpen nicked
    rw [entry] at nicked ⊢
    rw [lookup, fold, byId, List.mem_insert_iff]
    by_cases same : other = id
    · simp [same]
    · rw [if_neg same] at nicked ⊢
      obtain ⟨occupied, isIndexed⟩ := inv.occupies other otherOpen nicked
      have notNew : t.fold (t.entry other).nick ≠ t.fold nick := by
        intro here
        rw [here, free] at occupied
        cases occupied
      have notOld : ¬ ((t.entry id).nick ≠ "*" ∧ t.fold (t.entry other).nick = t.fold (t.entry id).nick) := by
        rintro ⟨wasNicked, here⟩
        rw [here, (inv.occupies id isOpen wasNicked).1] at occupied
        exact same (Option.some.inj occupied).symm
      rw [if_neg notNew, if_neg notOld]
      exact ⟨occupied, .inr isIndexed⟩
  case memberOf =>
    intro folded other
    rw [channels, sets]
    exact inv.memberOf folded other
  case named =>
    rw [fold, channels]
    exact inv.named
  case joined =>
    intro other otherOpen isIn
    rw [sets] at isIn
    rw [isRegistered]
    exact inv.joined other otherOpen isIn
  case registered =>
    intro other otherOpen registered
    rw [isRegistered] at registered
    rw [entry]
    split
    · exact proper
    · exact inv.registered other otherOpen registered
  case nonempty =>
    intro other otherOpen
    rw [entry]
    split
    · exact nonempty
    · exact inv.nonempty other otherOpen

/-- Only the data of one client changes, and its nick in case at most. -/
theorem reentered (inv : LocalConsistent t connected) {entry : ClientEntry}
    (nick : SameNick t.fold (t.entry id).nick entry.nick) (channels : entry.channels = (t.entry id).channels)
    (registered : (t.entry id).registered = true → entry.registered = true)
    (named : entry.registered = true → (t.entry id).nick ≠ "*") :
    LocalConsistent { t with entries := t.entries.insert id entry } connected := by
  have stored := Tables.entry_insert t { t with entries := t.entries.insert id entry } rfl
  have sets : ∀ other, (({ t with entries := t.entries.insert id entry } : Tables).entry other).channels =
      (t.entry other).channels := by
    intro other
    rw [stored]
    split
    · rename_i here
      rw [channels, here]
    · rfl
  refine inv.of_sameNicks rfl rfl rfl ?_ ?_ inv.named ?_ ?_
  · intro other
    rw [stored]
    split
    · rename_i here
      rw [here]
      exact nick
    · exact .of_eq rfl
  · intro folded other
    rw [sets]
    exact inv.memberOf folded other
  · intro other isOpen isIn
    rw [sets] at isIn
    have before := inv.joined other isOpen isIn
    rw [stored]
    split
    · rename_i here
      rw [here] at before
      exact registered before
    · exact before
  · intro other isOpen isRegistered
    rw [stored] at isRegistered
    split at isRegistered
    · rename_i here
      rw [here]
      exact named isRegistered
    · exact inv.registered other isOpen isRegistered

/-- The registry does not look at who a client says it is. -/
theorem cmdUser (inv : LocalConsistent s.toTables connected) (id : UInt64) (params : List String) :
    LocalConsistent (s.cmdUser id params).toTables connected := by
  obtain same | ⟨user, realname, said⟩ := s.cmdUser_cases id params
  · exact inv.of_toTables same
  · have entry := Tables.entry_insert s.toTables (s.cmdUser id params).toTables (by rw [said])
    have kept : ∀ other, ((s.cmdUser id params).entry other).nick = (s.entry other).nick ∧
        ((s.cmdUser id params).entry other).registered = (s.entry other).registered ∧
        ((s.cmdUser id params).entry other).channels = (s.entry other).channels := by
      intro other
      rw [entry]
      split
      · rename_i own
        rw [own]
        exact ⟨rfl, rfl, rfl⟩
      · exact ⟨rfl, rfl, rfl⟩
    refine inv.of_sameNicks (by rw [said]) (by rw [said]) (by rw [said]) (fun other => .of_eq (kept other).1) ?_ ?_ ?_ ?_
    · intro folded other
      rw [(kept other).2.2, said]
      exact inv.memberOf folded other
    · rw [said]
      exact inv.named
    · intro other isOpen isIn
      rw [(kept other).2.2] at isIn
      rw [(kept other).2.1]
      exact inv.joined other isOpen isIn
    · intro other isOpen isRegistered
      rw [(kept other).2.1] at isRegistered
      exact inv.registered other isOpen isRegistered

theorem cmdNick (inv : LocalConsistent s.toTables connected) (isOpen : id ∈ connected) (nick : String) :
    LocalConsistent (s.cmdNick id nick).toTables connected := by
  rw [Server.cmdNick]
  cases valid : isValidNick nick with
  | false => exact inv.of_toTables rfl
  | true =>
    obtain ⟨proper, nonempty⟩ := isValidNick_proper valid
    rw [if_neg (by simp)]
    extract_lets folded current currentFolded registered
    have unnamed : currentFolded = "" ↔ current = "*" := by
      show (if current = "*" then "" else s.fold current) = "" ↔ current = "*"
      split
      · simp [*]
      · rename_i nicked
        have empty := fold_eq_empty s.info.casemapping current
        simp only [Tables.fold, empty, nicked, iff_false]
        exact inv.nonempty id isOpen
    split
    · -- the nick stays the same, or changes its case
      rename_i same
      have nicked : current ≠ "*" := fun unset => same.1 (unnamed.mpr unset)
      have sameFold : s.fold nick = s.fold current := by
        have isFolded := same.2
        simp only [currentFolded, if_neg nicked] at isFolded
        exact isFolded
      split
      · exact inv
      · have recased : LocalConsistent (s.setNick id nick).toTables connected :=
          inv.reentered ⟨sameFold, iff_of_false proper nicked, fun empty => absurd empty nonempty⟩ rfl (fun h => h)
            fun _ => nicked
        split
        · refine recased.of_toTables ?_
          rw [Server.propagateNickChange_toTables, Server.broadcastNickChange_toTables]
        · exact recased
    · rename_i other
      obtain refused | ⟨own, -⟩ | ⟨free, claimed⟩ := Server.claimNick_cases s folded id
      · rw [refused]
        exact inv.of_toTables rfl
      · -- the nick that a client holds is its own, up to case
        obtain ⟨-, nicked, here⟩ := inv.holds folded id own
        have isFolded : currentFolded = folded := by
          simp only [currentFolded, if_neg (show current ≠ "*" from nicked)]
          exact here
        exact absurd ⟨fun empty => nicked (unnamed.mp empty), isFolded.symm⟩ other
      · rw [claimed]
        have renicked : LocalConsistent ((if currentFolded = "" then
              ({ s with clients := s.clients.insert folded id, byId := s.byId.insert id } : Server)
            else ({ s with clients := s.clients.insert folded id, byId := s.byId.insert id } : Server).releaseNick
              currentFolded).setNick id nick).toTables connected := by
          by_cases fresh : current = "*"
          · rw [if_pos (unnamed.mpr fresh), Server.setNick_toTables]
            refine inv.renicked proper nonempty free rfl rfl rfl rfl ?_ isOpen
            rw [if_pos fresh]
          · have isFolded : currentFolded = s.fold current := if_neg fresh
            rw [if_neg fun empty => fresh (unnamed.mp empty), isFolded, Server.setNick_toTables,
              Server.releaseNick_toTables]
            refine inv.renicked proper nonempty free rfl rfl rfl rfl ?_ isOpen
            rw [if_neg fresh]
        dsimp only
        split
        · refine renicked.of_toTables ?_
          simp only [Server.monitorOnline_toTables, Server.monitorOffline_toTables,
            Server.propagateNickChange_toTables, Server.broadcastNickChange_toTables, Server.recordWhowas_toTables]
        · exact renicked

/-! ### Connections -/

/-- A connection with a fresh id has neither a nick nor channels. -/
theorem connect (inv : LocalConsistent s.toTables connected) (fresh : s.nextId ∉ connected) (host : String) :
    LocalConsistent (s.connect host).toTables (s.nextId :: connected) := by
  have entry := Tables.entry_insert s.toTables (s.connect host).toTables rfl
  -- the number is new, so only the new client has the new entry
  have known : ∀ id ∈ connected, (s.connect host).entry id = s.entry id := by
    intro id isOpen
    rw [entry, if_neg]
    rintro rfl
    exact fresh isOpen
  have new : (s.connect host).entry s.nextId = { host, realIp := host } := by
    rw [entry, if_pos rfl]
  constructor
  case holds =>
    intro folded id found
    obtain ⟨isOpen, nicked, here⟩ := inv.holds folded id found
    rw [known id isOpen]
    exact ⟨List.mem_cons_of_mem _ isOpen, nicked, here⟩
  case occupies =>
    intro id isOpen nicked
    rcases List.mem_cons.mp isOpen with rfl | isOpen
    · rw [new] at nicked
      exact absurd rfl nicked
    · rw [known id isOpen] at nicked ⊢
      exact inv.occupies id isOpen nicked
  case memberOf =>
    intro folded id
    rw [List.mem_cons]
    refine (inv.memberOf folded id).trans ?_
    by_cases isNew : id = s.nextId
    · rw [isNew, new]
      simp [fresh]
    · rw [entry, if_neg isNew]
      simp [isNew]
  case named => exact inv.named
  case joined =>
    intro id isOpen isIn
    rcases List.mem_cons.mp isOpen with rfl | isOpen
    · rw [new] at isIn
      exact absurd rfl isIn
    · rw [known id isOpen] at isIn ⊢
      exact inv.joined id isOpen isIn
  case registered =>
    intro id isOpen registered
    rcases List.mem_cons.mp isOpen with rfl | isOpen
    · rw [new] at registered
      cases registered
    · rw [known id isOpen] at registered ⊢
      exact inv.registered id isOpen registered
  case nonempty =>
    intro id isOpen
    rcases List.mem_cons.mp isOpen with rfl | isOpen
    · rw [new]
      exact (by decide : "*" ≠ "")
    · rw [known id isOpen]
      exact inv.nonempty id isOpen

end LocalConsistent

namespace Server

theorem leaveOnQuit_toTables (id : UInt64) (entry : ClientEntry) (quit : Event) (reason : String)
    (state : Server × List UInt64) (folded : String) :
    (leaveOnQuit id entry quit reason state folded).1.toTables =
      { state.1.toTables with
        channels := reap (state.1.channels.modify folded fun channel => channel.dropLocal id) folded } := by
  obtain ⟨s, notified⟩ := state
  rw [leaveOnQuit]
  dsimp only
  cases found : s.findChannel folded with
  | none =>
    rw [Table.modify_of_notMem (AList.lookup_eq_none.mp found)]
    exact reapChannel_toTables s folded
  | some channel =>
    dsimp only
    rw [reapChannel_toTables]
    rfl

/-- A departing client leaves the channels of its set. -/
theorem quitChannels_toTables (s : Server) (id : UInt64) (reason : String) :
    (s.quitChannels id reason).toTables =
      { s.toTables with
        channels := (s.entry id).channels.foldl (fun channels name =>
          reap (channels.modify name fun channel => channel.dropLocal id) name) s.channels } := by
  have each : ∀ (names : List String) (entry : ClientEntry) (quit : Event) (state : Server × List UInt64),
      (names.foldl (leaveOnQuit id entry quit reason) state).1.toTables =
        { state.1.toTables with
          channels := names.foldl (fun channels name =>
            reap (channels.modify name fun channel => channel.dropLocal id) name) state.1.channels } := by
    intro names entry quit
    induction names with
    | nil => exact fun _ => rfl
    | cons name rest ih =>
      intro state
      rw [List.foldl_cons, ih, leaveOnQuit_toTables]
      rfl
  rw [quitChannels]
  dsimp only
  rw [each, recordWhowas_toTables]

/-- A departing client leaves its channels, the index and the watch lists, and releases its nick if it
holds it. -/
theorem disconnect_toTables (s : Server) (id : UInt64) (reason : String) :
    (s.disconnect id reason).toTables = { s.toTables with
      monitors := (s.entry id).monitor.foldl (unwatch id) s.monitors
      byId := s.byId.filter fun other => other != id
      channels := if (s.entry id).registered then
          (s.entry id).channels.foldl (fun channels name =>
            reap (channels.modify name fun channel => channel.dropLocal id) name) s.channels
        else s.channels
      clients := if ((s.entry id).nick != "" && (s.entry id).nick != "*") &&
            s.clients.lookup (s.fold (s.entry id).nick) == some id then
          s.clients.erase (s.fold (s.entry id).nick)
        else s.clients } := by
  -- the steps of the source by its own variables, each with what it does to the tables
  unfold disconnect
  extract_lets entry named left gone quiet unwatched
  have leaves : left.toTables = { s.toTables with
      channels := if entry.registered then entry.channels.foldl (fun channels name =>
          reap (channels.modify name fun channel => channel.dropLocal id) name) s.channels
        else s.channels } := by
    show (if entry.registered then s.quitChannels id reason else s).toTables = _
    split
    · exact quitChannels_toTables s id reason
    · rfl
  have quiets : quiet.toTables = gone.toTables := by
    show (if entry.registered && named then gone.monitorOffline entry.nick else gone).toTables = gone.toTables
    split
    · exact monitorOffline_toTables gone entry.nick
    · rfl
  have goes : gone.toTables = { left.toTables with byId := left.byId.filter fun other => other != id } := rfl
  have tables : unwatched.toTables = { s.toTables with
      monitors := entry.monitor.foldl (unwatch id) s.monitors
      byId := s.byId.filter fun other => other != id
      channels := if entry.registered then entry.channels.foldl (fun channels name =>
          reap (channels.modify name fun channel => channel.dropLocal id) name) s.channels
        else s.channels } := by
    refine (unwatchAll_toTables id entry.monitor quiet).trans ?_
    rw [quiets, goes, leaves]
  have clients : unwatched.clients = s.clients := by rw [tables]
  have fold : unwatched.fold = s.fold := by
    funext name
    rw [Tables.fold, Tables.fold, tables]
  rw [fold, clients]
  split
  · show { unwatched.toTables with clients := unwatched.clients.erase (s.fold entry.nick) } = _
    rw [tables]
  · exact tables

end Server

namespace LocalConsistent

variable {s : Server} {connected : List UInt64} {id : UInt64}

/-- A client that leaves takes its nick with it. -/
theorem lookup_disconnect (inv : LocalConsistent s.toTables connected) (isOpen : id ∈ connected) (reason : String)
    (folded : String) :
    (s.disconnect id reason).clients.lookup folded =
      (s.clients.lookup folded).filter fun holder => holder != id := by
  have clients := congrArg (fun t : Tables => t.clients) (Server.disconnect_toTables s id reason)
  dsimp only at clients
  -- what the client holds is its own nick, and the source checks that before it takes it away
  have own : s.clients.lookup folded = some id → folded = s.fold (s.entry id).nick ∧
      ((s.entry id).nick != "" && (s.entry id).nick != "*") = true := by
    intro held
    obtain ⟨-, nicked, here⟩ := inv.holds folded id held
    simp [here, nicked, inv.nonempty id isOpen]
  have others : (s.clients.lookup folded ≠ some id) →
      (s.clients.lookup folded).filter (fun holder => holder != id) = s.clients.lookup folded := by
    intro notOwn
    cases held : s.clients.lookup folded with
    | none => rfl
    | some holder =>
      have different : holder ≠ id := fun same => notOwn (by rw [held, same])
      simp [Option.filter, different]
  rw [clients]
  split
  · rename_i released
    have held : s.clients.lookup (s.fold (s.entry id).nick) = some id :=
      eq_of_beq (Bool.and_eq_true_iff.mp released).2
    rw [Table.lookup_erase_if]
    by_cases here : folded = s.fold (s.entry id).nick
    · rw [if_pos here, here, held]
      simp [Option.filter]
    · rw [if_neg here, others fun same => here (own same).1]
  · -- the client holds no nick, so that nothing is taken
    rename_i kept
    refine (others fun held => kept ?_).symm
    obtain ⟨here, named⟩ := own held
    rw [named, ← here, held]
    simp

/-- A client that leaves takes its nick and its memberships with it. -/
theorem disconnect (inv : LocalConsistent s.toTables connected) (isOpen : id ∈ connected) (reason : String) :
    LocalConsistent (s.disconnect id reason).toTables (connected.filter fun other => other != id) := by
  have same := Server.disconnect_toTables s id reason
  have info := congrArg (fun t : Tables => t.info) same
  have entries := congrArg (fun t : Tables => t.entries) same
  have byId := congrArg (fun t : Tables => t.byId) same
  have channels := congrArg (fun t : Tables => t.channels) same
  dsimp only at info entries byId channels
  have fold : (s.disconnect id reason).fold = s.fold := by
    funext name
    rw [Tables.fold, Tables.fold, info]
  have entry : ∀ other, (s.disconnect id reason).entry other = s.entry other := by
    intro other
    rw [Tables.entry, Tables.entry, entries]
  have stays : ∀ other, other ∈ connected.filter (fun other => other != id) ↔ other ∈ connected ∧ other ≠ id := by
    intro other
    rw [List.mem_filter, bne_iff_ne]
  have lookup := inv.lookup_disconnect isOpen reason
  constructor
  case holds =>
    intro folded other found
    rw [lookup] at found
    obtain ⟨found, different⟩ := Option.filter_eq_some_iff.mp found
    obtain ⟨otherOpen, nicked, here⟩ := inv.holds folded other found
    rw [entry, fold, stays]
    exact ⟨⟨otherOpen, by simpa using different⟩, nicked, here⟩
  case occupies =>
    intro other otherOpen nicked
    obtain ⟨otherOpen, different⟩ := (stays other).mp otherOpen
    rw [entry] at nicked
    obtain ⟨occupied, isIndexed⟩ := inv.occupies other otherOpen nicked
    rw [entry, fold, lookup, byId, occupied, List.mem_filter]
    simp [Option.filter, different, isIndexed]
  case memberOf =>
    intro folded other
    rw [entry, stays, channels]
    by_cases registered : (s.entry id).registered = true
    · rw [if_pos registered, isMember_leaveAll, inv.memberOf]
      by_cases own : other = id
      · simp [own]
      · simp [own]
    · -- a client that never registered is in no channel
      have none : (s.entry id).channels = [] :=
        Decidable.not_not.mp fun isIn => registered (inv.joined id isOpen isIn)
      rw [if_neg registered, inv.memberOf]
      by_cases own : other = id
      · simp [own, none]
      · simp [own]
  case named =>
    rw [fold, channels]
    split
    · exact inv.named.leaveAll id _
    · exact inv.named
  case joined =>
    intro other otherOpen isIn
    rw [entry] at isIn ⊢
    exact inv.joined other ((stays other).mp otherOpen).1 isIn
  case registered =>
    intro other otherOpen registered
    rw [entry] at registered ⊢
    exact inv.registered other ((stays other).mp otherOpen).1 registered
  case nonempty =>
    intro other otherOpen
    rw [entry]
    exact inv.nonempty other ((stays other).mp otherOpen).1

theorem closeConnection (inv : LocalConsistent s.toTables connected) (isOpen : id ∈ connected) (reason : String) :
    LocalConsistent (s.closeConnection id reason).toTables (connected.filter fun other => other != id) := by
  rw [Server.closeConnection]
  split
  · have withdrawn : LocalConsistent (s.withdrawLocal id reason).toTables connected :=
      inv.of_toTables (Server.withdrawLocal_toTables _ _ _)
    exact withdrawn.disconnect isOpen reason
  · exact inv.disconnect isOpen reason

/-- A client with a nick registers, unless a server ban turns it away. -/
theorem completeRegistration (inv : LocalConsistent s.toTables connected) (isOpen : id ∈ connected)
    (nicked : (s.entry id).nick ≠ "*") (cloak : String) :
    LocalConsistent (s.completeRegistration id cloak).toTables
      (if (s.matchesKline (s.entry id).realHostmask).isSome then connected.filter fun other => other != id
        else connected) := by
  rw [Server.completeRegistration]
  cases s.matchesKline (s.entry id).realHostmask with
  | some reason => exact inv.closeConnection isOpen _
  | none =>
    have registered : LocalConsistent (s.modifyEntry id fun entry =>
        { entry with host := cloak, registered := true }).toTables connected :=
      inv.reentered (.of_eq rfl) rfl (fun _ => rfl) fun _ => nicked
    refine registered.of_toTables ?_
    rw [Server.monitorOnline_toTables, Server.introduceLocal_toTables]

/-! ### Frames -/

theorem remoteKick (inv : LocalConsistent s.toTables connected) (channelName source targetUid reason : String) :
    LocalConsistent (s.remoteKick channelName source targetUid reason).toTables connected := by
  obtain same | ⟨id, -, kicked⟩ | ⟨-, -, kicked⟩ :=
    Server.remoteKick_toTables s channelName source targetUid reason
  · exact inv.of_toTables same
  · rw [kicked]
    exact inv.partedLocal _ id
  · rw [kicked]
    exact inv.undisturbed (.parted _ _ _)

theorem remoteRename (inv : LocalConsistent s.toTables connected) (source old new reason : String) :
    LocalConsistent (s.remoteRename source old new reason).toTables connected := by
  obtain same | ⟨moved, renamed, same⟩ := Server.remoteRename_toTables s source old new reason
  · exact inv.of_toTables same
  · exact (inv.renamedChannel renamed).of_toTables same

/-- Whatever a peer sends, the references stay consistent. -/
theorem receive (inv : LocalConsistent s.toTables connected) (peerSid : String) (message : LinkMessage) :
    LocalConsistent (s.receive peerSid message).toTables connected := by
  have applied : ∀ (authorized : Bool) (change : Server → Server),
      s.handle peerSid message = s.applyIf authorized peerSid message change →
      LocalConsistent (change s).toTables connected →
      LocalConsistent (s.receive peerSid message).toTables connected := by
    intro authorized change handled kept
    rw [Server.receive_applyIf handled]
    cases authorized with
    | true => exact kept
    | false => exact inv
  by_cases kick : ∃ channel source target reason, message = .skick channel source target reason
  · obtain ⟨channel, source, target, reason, rfl⟩ := kick
    exact applied _ (fun s => s.remoteKick channel source target reason) rfl (inv.remoteKick _ _ _ _)
  by_cases rename : ∃ source old new reason, message = .srename source old new reason
  · obtain ⟨source, old, new, reason, rfl⟩ := rename
    exact applied _ (fun s => s.remoteRename source old new reason) rfl (inv.remoteRename _ _ _ _)
  refine inv.undisturbed (.receive ?_ ?_)
  · exact fun channel source target reason same => kick ⟨channel, source, target, reason, same⟩
  · exact fun source old new reason same => rename ⟨source, old, new, reason, same⟩

end LocalConsistent

/-! ## Runs -/

/-- A server and the ids of its open connections. -/
structure Node where
  server : Server
  connected : List UInt64

/-- What clients and peers make a server do, and changes elsewhere in between. -/
inductive SessionCall where
  | connect (host : String)
  | cmdNick (id : UInt64) (nick : String)
  | cmdUser (id : UInt64) (params : List String)
  | completeRegistration (id : UInt64) (cloak : String)
  | joinOne (id : UInt64) (name : String) (key : Option String)
  | partOne (id : UInt64) (name : String) (reason : Option String)
  | kickOne (id : UInt64) (chan targetNick : String) (reason : Option String)
  | cmdRename (id : UInt64) (old newName reason : String)
  | closeConnection (id : UInt64) (reason : String)
  | receive (peerSid : String) (message : LinkMessage)
  | remoteKick (channelName source targetUid reason : String)
  | killByUid (uid reason : String)
  | acceptRemoteUser (user : RemoteUser)
  | remoteNickChange (uid newNick : String)
  | dropLink (sid : String)
  | elsewhere

namespace SessionCall

/-- Only open connections issue commands, and those that need it after registration.  The
counter of ids does not come round to one that is in use. -/
def Performs (node node' : Node) : SessionCall → Prop
  | connect host => node.server.nextId ∉ node.connected ∧
      node' = ⟨node.server.connect host, node.server.nextId :: node.connected⟩
  | cmdNick id nick => id ∈ node.connected ∧ node' = ⟨node.server.cmdNick id nick, node.connected⟩
  | cmdUser id params => id ∈ node.connected ∧ node' = ⟨node.server.cmdUser id params, node.connected⟩
  -- who is banned is disconnected instead
  | completeRegistration id cloak => id ∈ node.connected ∧ (node.server.entry id).nick ≠ "*" ∧
      node' = ⟨node.server.completeRegistration id cloak,
        if (node.server.matchesKline (node.server.entry id).realHostmask).isSome then
          node.connected.filter fun other => other != id
        else node.connected⟩
  | joinOne id name key => id ∈ node.connected ∧ (node.server.entry id).registered = true ∧
      node' = ⟨node.server.joinOne id name key, node.connected⟩
  | partOne id name reason => node' = ⟨node.server.partOne id name reason, node.connected⟩
  | kickOne id chan targetNick reason => node' = ⟨node.server.kickOne id chan targetNick reason, node.connected⟩
  | cmdRename id old newName reason => node' = ⟨node.server.cmdRename id old newName reason, node.connected⟩
  | closeConnection id reason => id ∈ node.connected ∧
      node' = ⟨node.server.closeConnection id reason, node.connected.filter fun other => other != id⟩
  | receive peerSid message => node' = ⟨node.server.receive peerSid message, node.connected⟩
  | remoteKick channelName source targetUid reason =>
      node' = ⟨node.server.remoteKick channelName source targetUid reason, node.connected⟩
  | killByUid uid reason => node' = ⟨node.server.killByUid uid reason, node.connected⟩
  | acceptRemoteUser user => node' = ⟨(node.server.acceptRemoteUser user).1, node.connected⟩
  | remoteNickChange uid newNick => node' = ⟨(node.server.remoteNickChange uid newNick).1, node.connected⟩
  | dropLink sid => node' = ⟨node.server.dropLink sid, node.connected⟩
  | elsewhere => Undisturbed node.server.toTables node'.server.toTables ∧ node'.connected = node.connected

/-- A server starts without clients and channels. -/
def machine : Machine Node SessionCall where
  start node := node.server.clients = ∅ ∧ node.server.channels = ∅ ∧ node.connected = []
  step node call node' := call.Performs node node'

theorem perform_localConsistent {node node' : Node} {call : SessionCall}
    (inv : LocalConsistent node.server.toTables node.connected) (performed : call.Performs node node') :
    LocalConsistent node'.server.toTables node'.connected := by
  cases call with
  | connect host =>
    obtain ⟨fresh, rfl⟩ := performed
    exact inv.connect fresh host
  | cmdNick id nick =>
    obtain ⟨isOpen, rfl⟩ := performed
    exact inv.cmdNick isOpen nick
  | cmdUser id params =>
    obtain ⟨-, rfl⟩ := performed
    exact inv.cmdUser id params
  | completeRegistration id cloak =>
    obtain ⟨isOpen, nicked, rfl⟩ := performed
    exact inv.completeRegistration isOpen nicked cloak
  | joinOne id name key =>
    obtain ⟨isOpen, registered, rfl⟩ := performed
    exact inv.joinOne isOpen registered name key
  | partOne id name reason =>
    cases performed
    exact inv.partOne id name reason
  | kickOne id chan targetNick reason =>
    cases performed
    exact inv.kickOne id chan targetNick reason
  | cmdRename id old newName reason =>
    cases performed
    exact inv.cmdRename id old newName reason
  | closeConnection id reason =>
    obtain ⟨isOpen, rfl⟩ := performed
    exact inv.closeConnection isOpen reason
  | receive peerSid message =>
    cases performed
    exact inv.receive peerSid message
  | remoteKick channelName source targetUid reason =>
    cases performed
    exact inv.remoteKick channelName source targetUid reason
  | killByUid uid reason =>
    cases performed
    exact inv.undisturbed (.of_moves (.killByUid node.server uid reason))
  | acceptRemoteUser user =>
    cases performed
    exact inv.undisturbed (.of_moves (.acceptRemoteUser node.server user))
  | remoteNickChange uid newNick =>
    cases performed
    exact inv.undisturbed (.of_moves (.remoteNickChange node.server uid newNick))
  | dropLink sid =>
    cases performed
    exact inv.undisturbed (.of_moves (.dropLink node.server sid))
  | elsewhere =>
    obtain ⟨same, sameConnected⟩ := performed
    rw [sameConnected]
    exact inv.undisturbed same

theorem run_localConsistent {node : Node} (run : machine.Reachable node) :
    LocalConsistent node.server.toTables node.connected := by
  refine run.invariant (I := fun node => LocalConsistent node.server.toTables node.connected) ?_ ?_
  · intro node ⟨noClients, noChannels, noConnections⟩
    rw [noConnections]
    constructor
    case holds =>
      intro folded id held
      rw [noClients] at held
      cases held
    case memberOf =>
      intro folded id
      simp [isMember, noChannels]
    case named =>
      intro folded channel found
      rw [noChannels] at found
      cases found
    case occupies => exact fun _ isOpen => absurd isOpen List.not_mem_nil
    case joined => exact fun _ isOpen => absurd isOpen List.not_mem_nil
    case registered => exact fun _ isOpen => absurd isOpen List.not_mem_nil
    case nonempty => exact fun _ isOpen => absurd isOpen List.not_mem_nil
  · exact fun node call next inv _ performed => perform_localConsistent inv performed

/-- In every state of every run, each key of the nick registry is the folded nick of a connected
client, each connected client with a nick has exactly one key and is indexed, the members of the
channels are the clients that have them in their sets, and channels are filed under their names. -/
theorem run_localRegistry {node : Node} (run : machine.Reachable node) :
    (∀ folded id, node.server.clients.lookup folded = some id →
        id ∈ node.connected ∧ node.server.fold (node.server.entry id).nick = folded) ∧
      (∀ id ∈ node.connected, (node.server.entry id).nick ≠ "*" →
        (∃! folded, node.server.clients.lookup folded = some id) ∧ id ∈ node.server.byId) ∧
      (∀ folded id, isMember node.server.channels folded id = true ↔
        id ∈ node.connected ∧ folded ∈ (node.server.entry id).channels) ∧
      ∀ folded channel, node.server.findChannel folded = some channel →
        node.server.fold channel.name = folded := by
  have inv := run_localConsistent run
  refine ⟨?_, ?_, inv.memberOf, inv.named⟩
  · intro folded id held
    obtain ⟨isOpen, -, here⟩ := inv.holds folded id held
    exact ⟨isOpen, here⟩
  · intro id isOpen nicked
    obtain ⟨occupied, isIndexed⟩ := inv.occupies id isOpen nicked
    refine ⟨⟨_, occupied, fun folded held => ?_⟩, isIndexed⟩
    exact (inv.holds folded id held).2.2.symm

def aliceData : List String := ["alice", "0", "*", "Alice Liddell"]

/-- A client connects, takes a nick and says who it is. -/
def aliceNamed : Server :=
  ((Server.alpha.connect "host.example").cmdNick 1 "Alice").cmdUser 1 aliceData

/-- She registers and joins `#lean`. -/
def aliceOnline : Server :=
  (aliceNamed.completeRegistration 1 "cloak.example").joinOne 1 "#Lean" none

theorem run_localRegistry_alice :
    (∀ folded id, aliceOnline.clients.lookup folded = some id →
        id ∈ [1] ∧ aliceOnline.fold (aliceOnline.entry id).nick = folded) ∧
      (∀ id ∈ [1], (aliceOnline.entry id).nick ≠ "*" →
        (∃! folded, aliceOnline.clients.lookup folded = some id) ∧ id ∈ aliceOnline.byId) ∧
      (∀ folded id, isMember aliceOnline.channels folded id = true ↔
        id ∈ [1] ∧ folded ∈ (aliceOnline.entry id).channels) ∧
      ∀ folded channel, aliceOnline.findChannel folded = some channel →
        aliceOnline.fold channel.name = folded := by
  have started : machine.Reachable ⟨Server.alpha, []⟩ := .start ⟨rfl, rfl, rfl⟩
  have connected : machine.Reachable ⟨Server.alpha.connect "host.example", [1]⟩ :=
    .step (e := connect "host.example") started trivial ⟨by decide, rfl⟩
  have nicked : machine.Reachable ⟨(Server.alpha.connect "host.example").cmdNick 1 "Alice", [1]⟩ :=
    .step (e := cmdNick 1 "Alice") connected trivial ⟨by decide, rfl⟩
  have named : machine.Reachable ⟨aliceNamed, [1]⟩ :=
    .step (e := cmdUser 1 aliceData) nicked trivial ⟨by decide, rfl⟩
  have registered : machine.Reachable ⟨aliceNamed.completeRegistration 1 "cloak.example", [1]⟩ := by
    have unbanned : (aliceNamed.matchesKline (aliceNamed.entry 1).realHostmask).isSome = false := by decide
    refine .step (e := completeRegistration 1 "cloak.example") named trivial ⟨by decide, by decide, ?_⟩
    simp only [unbanned, Bool.false_eq_true, if_false]
  have run : machine.Reachable ⟨aliceOnline, [1]⟩ :=
    .step (e := joinOne 1 "#Lean" none) registered trivial ⟨by decide, by decide, rfl⟩
  exact run_localRegistry run

end SessionCall

end Ferrixd
