import Ferrixd.Burst.Reading
import Ferrixd.Invariant.Registry

/-! # The user frames of a burst

Users whose nicks are free at the reader and differ from each other are all filed as they are.
Whatever the nicks are, every user is filed under its own and found by its UID. -/

namespace Ferrixd

/-- A user as its introduction alone describes it. -/
def RemoteUser.plain (user : RemoteUser) : RemoteUser :=
  { user with away := none, oper := false, invisible := false, bot := false }

theorem Server.introduced_plain {user : RemoteUser} (account : user.account ≠ some "*") :
    introduced user.serverSid user.uid user.nick user.user user.host (user.account.getD "*") user.realname =
      user.plain := by
  rw [introduced, RemoteUser.plain]
  cases named : user.account with
  | none => rfl
  | some name =>
    have other : ¬ name = "*" := fun star => account (by rw [named, star])
    simp [other]

theorem umodeFlags_toList (oper invisible bot : Bool) :
    (umodeFlags oper invisible bot).map String.toList =
      if oper || invisible || bot then
        some ('+' :: ((if oper then ['o'] else []) ++ (if invisible then ['i'] else []) ++
          if bot then ['B'] else []))
      else none := by
  cases oper <;> cases invisible <;> cases bot <;> decide

/-- The away state and the modes that a user's further frames restore. -/
theorem RemoteUser.restored (user : RemoteUser) :
    (umodeFlags user.oper user.invisible user.bot).elim
      (user.away.elim user.plain fun away => { user.plain with away := some away })
      (fun flags => (flags.toList.foldl Server.umodeStep
        (user.away.elim user.plain fun away => { user.plain with away := some away }, true)).1) = user := by
  have flagsOf : ∀ (start : RemoteUser) (flags : Option String),
      flags.elim start (fun flags => (flags.toList.foldl Server.umodeStep (start, true)).1) =
        (flags.map String.toList).elim start fun flags => (flags.foldl Server.umodeStep (start, true)).1 := by
    intro start flags
    cases flags <;> rfl
  rw [flagsOf, umodeFlags_toList]
  obtain ⟨serverSid, uid, nick, name, host, account, realname, away, oper, invisible, bot⟩ := user
  cases away <;> cases oper <;> cases invisible <;> cases bot <;> rfl

/-! ## One frame -/

namespace Server

theorem handle_uid {s : Server} {peerSid : String} {user : RemoteUser} (isOpen : s.Open peerSid user.serverSid)
    (ownUid : startsWith user.uid user.serverSid = true) (account : user.account ≠ some "*") :
    ∃ routes s', s.handle peerSid (.uid user.serverSid user.uid 0 user.nick user.user user.host
        (user.account.getD "*") user.realname) = (s', .more) ∧
      routes.lookup user.serverSid = some peerSid ∧
      s.Attached peerSid { s.toTables with remoteRoutes := routes } ∧
      s'.toTables = (({ s with remoteRoutes := routes } : Server).acceptRemoteUser user.plain).1.toTables := by
  obtain ⟨routes, claimed, routed, attached⟩ := routeAuthorize_open isOpen
  have answered : ∀ (message : LinkMessage) (result : Server × Option LinkMessage),
      ∃ s', answerOrForward peerSid message result = (s', .more) ∧ s'.toTables = result.1.toTables := by
    intro message result
    obtain ⟨later, answer⟩ := result
    cases answer with
    | none => exact ⟨_, rfl, rfl⟩
    | some kill => exact ⟨_, rfl, sendToLink_toTables _ _ _⟩
  obtain ⟨s', result, tables⟩ := answered
    (.uid user.serverSid user.uid 0 user.nick user.user user.host (user.account.getD "*") user.realname)
    (({ s with remoteRoutes := routes } : Server).acceptRemoteUser user.plain)
  refine ⟨routes, s', ?_, routed, attached, tables⟩
  simp only [handle, ownUid, Bool.not_true, Bool.false_eq_true, if_false, claimed,
    introduced_plain account, result]

theorem handle_saway (s : Server) (peerSid uid : String) (reason : Option String) :
    ∃ s', s.handle peerSid (.saway uid reason) = (s', .more) ∧
      s'.toTables = if s.remoteUidAuthorized peerSid uid then
        { s.toTables with toRegistry := s.toRegistry.update uid fun user => { user with away := reason } }
        else s.toTables := by
  obtain ⟨s', handled, tables⟩ := handle_applyIf (.saway uid reason) (s.remoteUidAuthorized peerSid uid)
    (fun s => s.remoteAway uid reason) rfl
  exact ⟨s', handled, by rw [tables, remoteAway, changeRemoteUser_toTables]⟩

theorem handle_sumode (s : Server) (peerSid uid flags : String) :
    ∃ s', s.handle peerSid (.sumode uid flags) = (s', .more) ∧
      s'.toTables = if s.remoteUidAuthorized peerSid uid then
        { s.toTables with
          toRegistry := s.toRegistry.update uid fun user => (flags.toList.foldl umodeStep (user, true)).1 }
        else s.toTables := by
  obtain ⟨s', handled, tables⟩ := handle_applyIf (.sumode uid flags) (s.remoteUidAuthorized peerSid uid)
    (fun s => s.remoteUmode uid flags) rfl
  exact ⟨s', handled, by rw [tables, remoteUmode, updateRemoteUser_toTables]⟩

end Server

/-! ## Any users -/

/-- Every user is filed under its nick, and every index entry leads to its user. -/
structure Registry.Filed (fold : String → String) (r : Registry) : Prop where
  filed : ∀ folded user, r.remoteUsers.lookup folded = some user → folded = fold user.nick
  sound : ∀ uid folded, r.remoteByUid.lookup uid = some folded →
    ∃ user, r.remoteUsers.lookup folded = some user ∧ user.uid = uid

namespace Registry.Filed

variable {fold : String → String} {r : Registry}

theorem remoteInsert (filed : r.Filed fold) (user : RemoteUser) :
    (r.remoteInsert (fold user.nick) user).Filed fold := by
  constructor
  · intro folded other found
    rw [lookup_users_insert] at found
    split at found
    · rename_i here
      cases found
      exact here
    · exact filed.filed _ _ found
  · intro uid folded index
    rw [lookup_users_insert]
    by_cases own : uid = user.uid
    · rw [own, lookup_index_own] at index
      cases index
      exact ⟨user, if_pos rfl, own.symm⟩
    · -- the user who had the nick loses its index, the others keep theirs
      rw [lookup_index_insert _ _ own] at index
      split at index
      · cases index
      · rename_i notReplaced
        obtain ⟨other, found, same⟩ := filed.sound uid folded index
        have elsewhere : folded ≠ fold user.nick := by
          intro here
          rw [here] at found
          simp [found, same] at notReplaced
        exact ⟨other, by rw [if_neg elsewhere]; exact found, same⟩

theorem update (filed : r.Filed fold) (uid : String) {change : RemoteUser → RemoteUser}
    (keepsKeys : ∀ user, (change user).uid = user.uid ∧ (change user).nick = user.nick) :
    (r.update uid change).Filed fold := by
  rw [Registry.update]
  cases r.remoteByUid.lookup uid with
  | none => exact filed
  | some place =>
    constructor
    · intro folded user found
      have modified : (r.remoteUsers.modify place change).lookup folded = some user := found
      rw [Table.lookup_modify] at modified
      split at modified
      · obtain ⟨before, stored, rfl⟩ := Option.map_eq_some_iff.mp modified
        rw [(keepsKeys before).2]
        exact filed.filed _ _ stored
      · exact filed.filed _ _ modified
    · intro other folded index
      obtain ⟨user, found, same⟩ := filed.sound other folded index
      show ∃ user, (r.remoteUsers.modify place change).lookup folded = some user ∧ user.uid = other
      rw [Table.lookup_modify]
      split
      · exact ⟨change user, by rw [found, Option.map_some], by rw [(keepsKeys user).1, same]⟩
      · exact ⟨user, found, same⟩

end Registry.Filed

/-- What users of any nicks leave of the reader: its rooms and a registry that is in order. -/
structure Tables.UsersFiled (before : Tables) (peerSid : String) (t : Tables) : Prop where
  attached : before.Attached peerSid t
  filed : t.toRegistry.Filed t.fold
  rooms : t.toRooms = before.toRooms
  clock : t.nowMillis = before.nowMillis

theorem Tables.purged_toRooms {t : Tables} {uid : String} (absent : t.remoteChannels.lookup uid = none) :
    (t.purged uid).toRooms = t.toRooms := by
  have unindexed : t.remoteChannels.erase uid = t.remoteChannels :=
    Table.erase_of_notMem (AList.lookup_eq_none.mp absent)
  rw [purged, absent, unindexed]
  rfl

namespace Server

/-- An introduction keeps the registry in order; nobody it removes is in a channel. -/
theorem acceptRemoteUser_filed {s : Server} (filed : s.toRegistry.Filed s.fold)
    (noMembers : s.remoteChannels = ∅) (user : RemoteUser) :
    (s.acceptRemoteUser user).1.toRegistry.Filed s.fold ∧
      (s.acceptRemoteUser user).1.toRooms = s.toRooms ∧
      (s.acceptRemoteUser user).1.toTopology = s.toTopology ∧
      (s.acceptRemoteUser user).1.info = s.info ∧
      (s.acceptRemoteUser user).1.nowMillis = s.nowMillis := by
  cases refreshes : s.refreshes (s.fold user.nick) user.uid with
  | true =>
    rw [acceptRemoteUser_refresh refreshes]
    exact ⟨filed.remoteInsert user, rfl, rfl, rfl, rfl⟩
  | false =>
    cases wins : s.outranks (s.fold user.nick) user.uid with
    | false =>
      rw [acceptRemoteUser_loses refreshes wins]
      exact ⟨filed, rfl, rfl, rfl, rfl⟩
    | true =>
      -- the loser of the nick was in no channel yet
      have vacated : (s.vacate (s.fold user.nick)).toRooms = s.toRooms ∧
          (s.vacate (s.fold user.nick)).nowMillis = s.nowMillis := by
        rw [Tables.vacate]
        split
        · exact ⟨rfl, rfl⟩
        · split
          · exact ⟨Tables.purged_toRooms (by rw [noMembers]; rfl), rfl⟩
          · exact ⟨rfl, rfl⟩
      rw [(acceptRemoteUser_wins wins).2]
      exact ⟨filed.remoteInsert user, vacated.1, Tables.vacate_toTopology _ _,
        (Tables.RegistryConsistent.vacate_same _ _).2, vacated.2⟩

/-- Every user frame of a burst is read and keeps the registry in order. -/
theorem reads_users_filed {s : Server} {peerSid : String} {users : List RemoteUser}
    (filed : s.toRegistry.Filed s.fold) (noMembers : s.remoteChannels = ∅)
    (isOpen : ∀ user ∈ users, s.Open peerSid user.serverSid)
    (ownUid : ∀ user ∈ users, startsWith user.uid user.serverSid = true)
    (account : ∀ user ∈ users, user.account ≠ some "*") :
    ∃ s', Reads peerSid s (users.flatMap RemoteUser.frames) s' ∧ s.UsersFiled peerSid s'.toTables := by
  have same : users.flatMap RemoteUser.frames =
      (users.flatMap RemoteUser.frames).flatMap fun message => [message] := by simp
  rw [same]
  refine Reads.forEach (I := fun _ later => s.UsersFiled peerSid later.toTables) (fun message => [message])
    _ ?_ ⟨.refl _ _, filed, rfl, rfl⟩
  intro done message rest later all kept
  have sent : message ∈ users.flatMap RemoteUser.frames := by simp [← all]
  obtain ⟨user, listed, framed⟩ := List.mem_flatMap.mp sent
  have updated : ∀ {change : RemoteUser → RemoteUser},
      (∀ user, (change user).uid = user.uid ∧ (change user).nick = user.nick) →
      s.UsersFiled peerSid { later.toTables with toRegistry := later.toRegistry.update user.uid change } := by
    intro change keepsKeys
    exact ⟨kept.attached.of_same rfl rfl rfl, kept.filed.update user.uid keepsKeys, kept.rooms, kept.clock⟩
  simp only [RemoteUser.frames, List.mem_cons, List.mem_append, Option.mem_toList,
    Option.map_eq_some_iff] at framed
  -- an introduction files the user; the frames after it may be refused, and change no key
  rcases framed with rfl | ⟨away, -, rfl⟩ | ⟨flags, -, rfl⟩
  · obtain ⟨routes, s', handled, -, attached, tables⟩ :=
      handle_uid (kept.attached.opened (isOpen user listed)) (ownUid user listed) (account user listed)
    obtain ⟨filed, rooms, topology, info, clock⟩ := acceptRemoteUser_filed
      (s := { later with remoteRoutes := routes }) kept.filed
      (by rw [← noMembers]; exact congrArg Rooms.remoteChannels kept.rooms) user.plain
    refine ⟨s', .one handled, ?_⟩
    rw [tables]
    refine ⟨(kept.attached.trans attached).of_same (congrArg Topology.links topology)
      (congrArg Topology.remoteRoutes topology) info, ?_, rooms.trans kept.rooms, clock.trans kept.clock⟩
    have sameFold : (({ later with remoteRoutes := routes } : Server).acceptRemoteUser user.plain).1.fold =
        later.fold := by
      funext name
      rw [Tables.fold, info]
      rfl
    rw [sameFold]
    exact filed
  · obtain ⟨s', handled, tables⟩ := handle_saway later peerSid user.uid (some away)
    refine ⟨s', .one handled, ?_⟩
    rw [tables]
    split
    · exact updated fun _ => ⟨rfl, rfl⟩
    · exact kept
  · obtain ⟨s', handled, tables⟩ := handle_sumode later peerSid user.uid flags
    refine ⟨s', .one handled, ?_⟩
    rw [tables]
    split
    · exact updated fun user => umode_keepsKeys _ user
    · exact kept

end Server

/-! ## Users with free nicks -/

/-- The tables with one user filed. -/
structure Tables.Files (before : Tables) (user : RemoteUser) (t : Tables) : Prop where
  users : ∀ folded, t.remoteUsers.lookup folded =
    if folded = before.fold user.nick then some user else before.remoteUsers.lookup folded
  indexed : t.remoteByUid.lookup user.uid = some (before.fold user.nick)
  others : ∀ uid, uid ≠ user.uid → t.remoteByUid.lookup uid = before.remoteByUid.lookup uid
  topology : t.toTopology = before.toTopology
  rooms : t.toRooms = before.toRooms
  locals : t.toLocals = before.toLocals
  info : t.info = before.info
  clock : t.nowMillis = before.nowMillis

namespace Tables.Files

variable {before t : Tables} {user : RemoteUser}

theorem known (files : before.Files user t) : t.remoteUserByUid user.uid = some user := by
  rw [remoteUserByUid, files.indexed, Option.bind_some, files.users, if_pos rfl]

theorem authorized (files : before.Files user t) {peerSid : String}
    (routed : before.remoteRoutes.lookup user.serverSid = some peerSid) :
    t.remoteUidAuthorized peerSid user.uid = true := by
  rw [remoteUidAuthorized, files.known]
  dsimp only
  rw [routedVia, files.topology, routed]
  simp

theorem update (files : before.Files user t) (change : RemoteUser → RemoteUser)
    (keepsKeys : (change user).uid = user.uid ∧ (change user).nick = user.nick) :
    before.Files (change user) { t with toRegistry := t.toRegistry.update user.uid change } := by
  have registry : t.toRegistry.update user.uid change =
      ⟨t.remoteUsers.modify (before.fold user.nick) change, t.remoteByUid⟩ := by
    rw [Registry.update, files.indexed]
  rw [registry]
  refine ⟨fun folded => ?_, ?_, ?_, files.topology, files.rooms, files.locals, files.info, files.clock⟩
  · dsimp only
    rw [Table.lookup_modify, keepsKeys.2, files.users]
    split
    · rfl
    · rfl
  · rw [keepsKeys.1, keepsKeys.2]
    exact files.indexed
  · rw [keepsKeys.1]
    exact files.others

end Tables.Files

namespace Server

/-- The introduction of a user whose nick is free, or already its own. -/
theorem acceptRemoteUser_files {s : Server} {user : RemoteUser}
    (noClient : s.findClient (s.fold user.nick) = none)
    (free : ∀ other, s.remoteUsers.lookup (s.fold user.nick) = some other → other.uid = user.uid) :
    s.toTables.Files user (s.acceptRemoteUser user).1.toTables := by
  -- either nobody has the nick, or the user itself and is refreshed
  have inserted : (s.acceptRemoteUser user).1.toTables =
      { s.toTables with toRegistry := s.toRegistry.remoteInsert (s.fold user.nick) user } := by
    cases held : s.remoteUsers.lookup (s.fold user.nick) with
    | none =>
      have wins : s.outranks (s.fold user.nick) user.uid = true := by
        rw [Tables.outranks, noClient, held]
        rfl
      have vacated : s.vacate (s.fold user.nick) = s.toTables := by
        rw [Tables.vacate, noClient, held]
      rw [(acceptRemoteUser_wins wins).2, vacated]
    | some other =>
      have refreshes : s.refreshes (s.fold user.nick) user.uid = true := by
        rw [Tables.refreshes, noClient, held]
        simpa using free other held
      rw [acceptRemoteUser_refresh refreshes]
      rfl
  rw [inserted]
  refine ⟨Registry.lookup_users_insert _ _ _, Registry.lookup_index_own _ _ _, ?_, rfl, rfl, rfl, rfl, rfl⟩
  intro uid different
  dsimp only
  rw [Registry.lookup_index_insert _ _ different, if_neg]
  intro replaced
  obtain ⟨other, held, same⟩ := (Option.any_eq_true _ _).mp replaced
  exact different ((decide_eq_true_eq.mp same).symm.trans (free other held))

/-- The frames of a user whose nick is free file the user as it is. -/
theorem reads_user {s : Server} {peerSid : String} {user : RemoteUser} (isOpen : s.Open peerSid user.serverSid)
    (ownUid : startsWith user.uid user.serverSid = true) (account : user.account ≠ some "*")
    (noClient : s.findClient (s.fold user.nick) = none)
    (free : ∀ other, s.remoteUsers.lookup (s.fold user.nick) = some other → other.uid = user.uid) :
    ∃ routes s', Reads peerSid s user.frames s' ∧ routes.lookup user.serverSid = some peerSid ∧
      s.Attached peerSid { s.toTables with remoteRoutes := routes } ∧
      ({ s.toTables with remoteRoutes := routes } : Tables).Files user s'.toTables := by
  obtain ⟨routes, introducedState, handled, routed, attached, tables⟩ := handle_uid isOpen ownUid account
  have introduced : ({ s.toTables with remoteRoutes := routes } : Tables).Files user.plain
      introducedState.toTables := by
    rw [tables]
    exact acceptRemoteUser_files (s := { s with remoteRoutes := routes }) noClient free
  -- the frames after the introduction restore what it leaves out: first the away text, then the user modes
  obtain ⟨awayState, awayRead, away⟩ : ∃ later, Reads peerSid introducedState
      (user.away.map fun away => LinkMessage.saway user.uid (some away)).toList later ∧
        ({ s.toTables with remoteRoutes := routes } : Tables).Files
          (user.away.elim user.plain fun away => { user.plain with away := some away }) later.toTables := by
    cases user.away with
    | none => exact ⟨introducedState, .nil, introduced⟩
    | some text =>
      obtain ⟨later, handled, tables⟩ := handle_saway introducedState peerSid user.uid (some text)
      have authorized : introducedState.remoteUidAuthorized peerSid user.uid = true :=
        introduced.authorized routed
      refine ⟨later, .one handled, ?_⟩
      rw [tables, if_pos authorized]
      exact introduced.update (fun user => { user with away := some text }) ⟨rfl, rfl⟩
  have awayUid : (user.away.elim user.plain fun away => { user.plain with away := some away }).uid = user.uid := by
    cases user.away <;> rfl
  obtain ⟨last, umodesRead, restored⟩ : ∃ later, Reads peerSid awayState
      ((umodeFlags user.oper user.invisible user.bot).map fun flags =>
        LinkMessage.sumode user.uid flags).toList later ∧
        ({ s.toTables with remoteRoutes := routes } : Tables).Files user later.toTables := by
    have result := user.restored
    cases set : umodeFlags user.oper user.invisible user.bot with
    | none =>
      rw [set] at result
      refine ⟨awayState, .nil, ?_⟩
      rw [← result]
      exact away
    | some flags =>
      rw [set] at result
      obtain ⟨later, handled, tables⟩ := handle_sumode awayState peerSid user.uid flags
      have authorized : awayState.remoteUidAuthorized peerSid user.uid = true := by
        rw [← awayUid]
        refine away.authorized ?_
        cases user.away <;> exact routed
      refine ⟨later, .one handled, ?_⟩
      have updated := away.update (fun user => (flags.toList.foldl umodeStep (user, true)).1)
        (umode_keepsKeys flags.toList _)
      dsimp only [Option.elim_some] at result
      rw [awayUid, result] at updated
      rw [tables, if_pos authorized]
      exact updated
  refine ⟨routes, last, ?_, routed, attached, restored⟩
  exact (Reads.one handled).append (awayRead.append umodesRead)

end Server

/-- The tables with users filed under nicks of their own. -/
structure Tables.UsersKnown (before : Tables) (peerSid : String) (users : List RemoteUser) (t : Tables) :
    Prop where
  attached : before.Attached peerSid t
  rooms : t.toRooms = before.toRooms
  locals : t.toLocals = before.toLocals
  clock : t.nowMillis = before.nowMillis
  present : ∀ user ∈ users, t.remoteUsers.lookup (before.fold user.nick) = some user
  others : ∀ folded, (∀ user ∈ users, before.fold user.nick ≠ folded) →
    t.remoteUsers.lookup folded = before.remoteUsers.lookup folded
  indexed : ∀ user ∈ users, ∃ named ∈ users, named.uid = user.uid ∧
    t.remoteByUid.lookup user.uid = some (before.fold named.nick)
  routed : ∀ user ∈ users, t.remoteRoutes.lookup user.serverSid = some peerSid

namespace Tables.UsersKnown

variable {before t : Tables} {peerSid : String} {users : List RemoteUser}

/-- The peer may act for the users it introduced. -/
theorem authorized (known : before.UsersKnown peerSid users t) {user : RemoteUser} (listed : user ∈ users) :
    t.remoteUidAuthorized peerSid user.uid = true := by
  obtain ⟨named, namedListed, -, index⟩ := known.indexed user listed
  have found : t.remoteUserByUid user.uid = some named := by
    rw [remoteUserByUid, index, Option.bind_some, known.present named namedListed]
  rw [remoteUidAuthorized, found]
  dsimp only
  rw [routedVia, known.routed named namedListed]
  simp

/-- One more user is filed. -/
theorem files (known : before.UsersKnown peerSid users t) {routes : Table String String} {user : RemoteUser}
    {later : Tables}
    (distinct : ∀ other ∈ users, before.fold other.nick = before.fold user.nick → other = user)
    (attached : t.Attached peerSid { t with remoteRoutes := routes })
    (routed : routes.lookup user.serverSid = some peerSid)
    (files : ({ t with remoteRoutes := routes } : Tables).Files user later) :
    before.UsersKnown peerSid (users ++ [user]) later := by
  have sameFold : ({ t with remoteRoutes := routes } : Tables).fold = before.fold := by
    funext name
    rw [fold, fold]
    exact congrArg (fun info => info.casemapping.fold name) known.attached.info
  obtain ⟨usersLookup, indexed, othersIndexed, topology, rooms, locals, info, clock⟩ := files
  rw [sameFold] at usersLookup indexed
  have routes_ : later.remoteRoutes = routes := congrArg Topology.remoteRoutes topology
  -- only the new user's nick changes hands, and no earlier user has it
  have stillPresent : ∀ other ∈ users ++ [user],
      later.remoteUsers.lookup (before.fold other.nick) = some other := by
    intro other listed
    rw [usersLookup]
    split
    · rename_i same
      rcases List.mem_append.mp listed with earlier | last
      · rw [distinct other earlier same]
      · rw [List.mem_singleton.mp last]
    · rename_i different
      rcases List.mem_append.mp listed with earlier | last
      · exact known.present other earlier
      · exact absurd (congrArg (fun user => before.fold user.nick) (List.mem_singleton.mp last)) different
  refine ⟨(known.attached.trans attached).of_same (congrArg Topology.links topology) routes_ info,
    rooms.trans known.rooms, locals.trans known.locals, clock.trans known.clock, stillPresent, ?_, ?_, ?_⟩
  · intro folded elsewhere
    have different : folded ≠ before.fold user.nick := Ne.symm (elsewhere user (by simp))
    rw [usersLookup, if_neg different]
    exact known.others folded fun other listed => elsewhere other (List.mem_append_left _ listed)
  · intro other listed
    by_cases own : other.uid = user.uid
    · exact ⟨user, by simp, own.symm, by rw [own]; exact indexed⟩
    · have earlier : other ∈ users := by
        rcases List.mem_append.mp listed with earlier | last
        · exact earlier
        · exact absurd (congrArg RemoteUser.uid (List.mem_singleton.mp last)) own
      obtain ⟨named, namedListed, same, index⟩ := known.indexed other earlier
      refine ⟨named, List.mem_append_left _ namedListed, same, ?_⟩
      rw [othersIndexed _ own]
      exact index
  · intro other listed
    rw [routes_]
    rcases List.mem_append.mp listed with earlier | last
    · exact attached.kept _ (known.routed other earlier)
    · rw [List.mem_singleton.mp last]
      exact routed

end Tables.UsersKnown

namespace Server

/-- Users whose nicks are free and differ from each other are all filed. -/
theorem reads_users_known {s : Server} {peerSid : String} {users : List RemoteUser}
    (isOpen : ∀ user ∈ users, s.Open peerSid user.serverSid)
    (ownUid : ∀ user ∈ users, startsWith user.uid user.serverSid = true)
    (account : ∀ user ∈ users, user.account ≠ some "*")
    (noClient : ∀ user ∈ users, s.findClient (s.fold user.nick) = none)
    (free : ∀ user ∈ users, s.remoteUsers.lookup (s.fold user.nick) = none)
    (distinct : ∀ user ∈ users, ∀ other ∈ users, s.fold user.nick = s.fold other.nick → user = other) :
    ∃ s', Reads peerSid s (users.flatMap RemoteUser.frames) s' ∧ s.UsersKnown peerSid users s'.toTables := by
  refine Reads.forEach (I := fun done later => s.UsersKnown peerSid done later.toTables) RemoteUser.frames users
    ?_ ⟨.refl _ _, rfl, rfl, rfl, by simp, by simp, by simp, by simp⟩
  intro done user rest later all known
  have listed : user ∈ users := by simp [← all]
  have earlier : ∀ other ∈ done, other ∈ users := fun other member => by simp [← all, member]
  have sameFold : later.fold = s.fold := by
    funext name
    rw [Tables.fold, Tables.fold, known.attached.info]
  -- a nick is held by a user of this burst or by nobody, as no two of them share one
  have holder : ∀ other, later.remoteUsers.lookup (later.fold user.nick) = some other → other.uid = user.uid := by
    intro other held
    rw [sameFold] at held
    by_cases again : ∃ before ∈ done, s.fold before.nick = s.fold user.nick
    · obtain ⟨before, member, same⟩ := again
      have isUser : before = user := distinct before (earlier before member) user listed same
      rw [← same, known.present before member, isUser] at held
      exact congrArg RemoteUser.uid (Option.some.inj held).symm
    · have elsewhere : ∀ before ∈ done, s.fold before.nick ≠ s.fold user.nick :=
        fun before member same => again ⟨before, member, same⟩
      rw [known.others _ elsewhere, free user listed] at held
      cases held
  have noLocal : later.findClient (later.fold user.nick) = none := by
    rw [Tables.findClient, sameFold, congrArg Locals.clients known.locals]
    exact noClient user listed
  obtain ⟨routes, s', read, routed, attached, files⟩ :=
    reads_user (known.attached.opened (isOpen user listed)) (ownUid user listed) (account user listed) noLocal holder
  exact ⟨s', read, known.files (fun other member same => distinct other (earlier other member) user listed same)
    attached routed files⟩

end Server

end Ferrixd
