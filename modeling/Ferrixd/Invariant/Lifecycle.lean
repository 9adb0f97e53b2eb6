import Ferrixd.Command.Flight
import Ferrixd.Invariant.Commands
import Ferrixd.Invariant.Occupants

/-! # The life of a channel

A channel is created by a join and reaped when its last member is gone.  Joins are taken in steps
between which every other command may run. -/

namespace Ferrixd

/-! ## The steps of a join -/

namespace Server

theorem beginJoin_channels (s : Server) (folded name : String) :
    ∃ channel, (s.beginJoin folded name).1.channels.lookup folded = some channel ∧
      channel.joining = joiningAt s.channels folded + 1 ∧
      (∀ who, Occupies s.channels folded who → channel.HasMember who) ∧
      ∀ other, other ≠ folded → (s.beginJoin folded name).1.channels.lookup other = s.channels.lookup other := by
  cases found : s.findChannel folded with
  | some channel =>
    have stored : s.channels.lookup folded = some channel := found
    rw [beginJoin_existing found]
    refine ⟨{ channel with joining := channel.joining + 1 }, ?_, ?_, ?_, ?_⟩
    · rw [modifyChannel_toTables, Table.lookup_modify, if_pos rfl, stored, Option.map_some]
    · rw [joiningAt_of_lookup stored]
    · rintro who ⟨other, otherStored, member⟩
      rw [stored] at otherStored
      cases otherStored
      cases who <;> exact member
    · intro other different
      rw [modifyChannel_toTables, Table.lookup_modify, if_neg different]
  | none =>
    have absent : s.channels.lookup folded = none := found
    rw [beginJoin_new found]
    refine ⟨_, AList.lookup_insert _, ?_, ?_, ?_⟩
    · rw [joiningAt_of_absent absent, (freshChannel_empty s.toTables folded name).2.2.1]
    · rintro who ⟨other, stored, -⟩
      rw [absent] at stored
      cases stored
    · exact fun other different => AList.lookup_insert_ne different

/-- The client is turned away, which may use up its invitation, or enters. -/
theorem settleFlight_cases (s : Server) (flight : Flight) (key block : Option String) :
    ∃ t : Tables, Undisturbed s.toTables t ∧ (∀ leaves, Tended leaves s.channels t.channels) ∧
      ((s.settleFlight flight key block).toTables = t ∨
        (flight.filed ∈ t.channels ∧ ∃ status, (s.settleFlight flight key block).toTables = { t with
          channels := t.channels.modify flight.filed fun channel => channel.addLocal flight.id status
          entries := t.entries.insert flight.id { t.entry flight.id with
            channels := (t.entry flight.id).channels.insert flight.folded } })) := by
  rw [settleFlight]
  cases found : s.findChannel flight.filed with
  | none => exact ⟨s.toTables, .of_eq rfl, fun _ => .refl _, .inl rfl⟩
  | some channel =>
    have present : flight.filed ∈ s.channels := AList.lookup_isSome.mp (Option.isSome_of_mem found)
    dsimp only
    split
    · exact ⟨s.toTables, .of_eq rfl, fun _ => .refl _, .inl rfl⟩
    · generalize s.fold (s.entry flight.id).nick = foldedNick
      -- a channel that the join created has no invitations to use up
      generalize isAsked : (if flight.created = true then s else s.modifyChannel flight.filed fun channel =>
        { channel with invited := channel.invited.filter fun nick => nick != foldedNick }) = asked
      have uninvited : Undisturbed s.toTables asked.toTables ∧ (∀ leaves, Tended leaves s.channels asked.channels) ∧
          flight.filed ∈ asked.channels := by
        cases created : flight.created with
        | true =>
          rw [if_pos created] at isAsked
          rw [← isAsked]
          exact ⟨.of_eq rfl, fun _ => .refl _, present⟩
        | false =>
          rw [if_neg (by simp [created])] at isAsked
          have rooms : SameRooms s.fold s.channels (s.channels.modify flight.filed fun channel =>
              { channel with invited := channel.invited.filter fun nick => nick != foldedNick }) :=
            .modify fun _ _ => ⟨rfl, rfl⟩
          have tended : ∀ leaves, Tended leaves s.channels (s.channels.modify flight.filed fun channel =>
              { channel with invited := channel.invited.filter fun nick => nick != foldedNick }) := by
            refine fun leaves => .modify (fun _ => rfl) fun channel who member => ?_
            cases who <;> exact member
          rw [← isAsked, modifyChannel_toTables]
          refine ⟨.of_rooms rfl rfl rooms, tended, ?_⟩
          · exact AList.mem_keys.mpr (by simpa using AList.mem_keys.mp present)
      obtain ⟨undisturbed, tended, here⟩ := uninvited
      refine ⟨asked.toTables, undisturbed, tended, ?_⟩
      cases block with
      | some reason => exact .inl (fail_toTables _ _ _ _ _ _)
      | none => exact .inr ⟨here, _, enterFiled_toTables _ _ _ _ _ _⟩

end Server

/-! ## What the commands do to the channels -/

namespace Server

variable (s : Server)

theorem closeConnection_tended (id : UInt64) (reason : String) :
    Tended (fun _ who => who = .inl id) s.channels (s.closeConnection id reason).channels := by
  have disconnected : ∀ later : Server, later.channels = s.channels →
      Tended (fun _ who => who = .inl id) s.channels (later.disconnect id reason).channels := by
    intro later same
    have disconnected := disconnect_toTables later id reason
    rw [disconnected]
    dsimp only
    rw [same]
    split
    · exact .leaveAll id _ _
    · exact .refl _
  rw [closeConnection]
  split
  · exact disconnected _ rfl
  · exact disconnected _ rfl

theorem completeRegistration_tended (id : UInt64) (cloak : String) :
    Tended (fun _ who => who = .inl id) s.channels (s.completeRegistration id cloak).channels := by
  rw [completeRegistration]
  split
  · exact closeConnection_tended s id _
  · rw [monitorOnline_toTables, introduceLocal_toTables]
    exact .refl _

/-- A channel moves when its name is folded differently. -/
theorem renameChannel_lookup {s s' : Server} {oldFolded newName : String}
    (renamed : s.renameChannel oldFolded newName = .ok s') :
    (∀ leaves, Tended leaves s.channels s'.channels) ∧ oldFolded ∈ s'.channels ∨
      ∃ channel, s.channels.lookup oldFolded = some channel ∧ s.fold newName ≠ oldFolded ∧
        s.fold newName ∉ s.channels ∧ ∀ folded, s'.channels.lookup folded =
          if folded = oldFolded then none
          else if folded = s.fold newName then some { channel with name := newName }
          else s.channels.lookup folded := by
  have present : oldFolded ∈ s.channels := by
    rw [renameChannel] at renamed
    cases found : s.findChannel oldFolded with
    | none => simp [found] at renamed
    | some channel => exact AList.lookup_isSome.mp (Option.isSome_of_mem found)
  obtain ⟨-, ⟨-, -, channels⟩ | ⟨channel, found, apart, free, channels, -⟩⟩ := renameChannel_ok renamed
  · left
    rw [channels]
    refine ⟨fun leaves => .modify (fun _ => rfl) fun channel who member => ?_, ?_⟩
    · cases who <;> exact member
    · exact AList.mem_keys.mpr (by simpa using AList.mem_keys.mp present)
  · refine .inr ⟨channel, found, apart, free, fun folded => ?_⟩
    rw [channels, Table.lookup_erase_if, Table.lookup_insert_if]

end Server

/-! ## Runs -/

/-- A server, its open connections and the joins in flight. -/
structure Lobby where
  server : Server
  connected : List UInt64
  flights : List Flight

/-- Commands, the steps of joins, renames, and changes elsewhere. -/
inductive LifecycleCall where
  | session (call : SessionCall)
  | beginJoin (id : UInt64) (name : String)
  | settleJoin (flight : Flight) (key block : Option String)
  | endJoin (flight : Flight)
  | reapChannel (folded : String)
  | cmdRename (id : UInt64) (old newName reason : String)
  | remoteRename (source old newName reason : String)
  | elsewhere (gone : List String)

/-- The client that is waiting for a command to complete, of the commands taken in one step. -/
def SessionCall.actor : SessionCall → Option (Option UInt64)
  | connect _ => some none
  | cmdNick id _ => some (some id)
  | cmdUser id _ => some (some id)
  | completeRegistration id _ => some (some id)
  | partOne id _ _ => some (some id)
  | kickOne id _ _ _ => some (some id)
  | closeConnection id _ => some (some id)
  | remoteKick _ _ _ _ => some none
  | _ => none

namespace Lobby

/-- A client has no join in flight. -/
def Free (node : Lobby) (id : UInt64) : Prop :=
  ∀ flight ∈ node.flights, flight.id ≠ id

/-- Where the joins in flight find their channels after a rename that left the table `channels`. -/
def follow (node : Lobby) (old newName : String) (channels : Table String ChannelEntry) : List Flight :=
  node.flights.map fun flight =>
    if flight.filed = node.server.fold old ∧ node.server.fold old ∉ channels then
      { flight with filed := node.server.fold newName }
    else flight

/-- A rename gives the channel another key, which is free. -/
def Rekeys (node : Lobby) (old newName : String) : Prop :=
  node.server.fold old ∈ node.server.channels ∧ node.server.fold newName ≠ node.server.fold old ∧
    node.server.fold newName ∉ node.server.channels

end Lobby

namespace LifecycleCall

/-- A client's commands run one after the other, those of several clients in any order. -/
def Performs (node node' : Lobby) : LifecycleCall → Prop
  | session call => ∃ actor, call.actor = some actor ∧ (∀ id ∈ actor, node.Free id) ∧
      call.Performs ⟨node.server, node.connected⟩ ⟨node'.server, node'.connected⟩ ∧ node'.flights = node.flights
  | beginJoin id name => node.Free id ∧ id ∈ node.connected ∧ (node.server.entry id).registered = true ∧
      node.server.reachesChannel id name = true ∧
      node' = ⟨(node.server.beginFlight id name).1, node.connected,
        (node.server.beginFlight id name).2 :: node.flights⟩
  | settleJoin flight key block => flight ∈ node.flights ∧ flight.settled = false ∧ flight.id ∈ node.connected ∧
      (node.server.entry flight.id).registered = true ∧
      node' = ⟨node.server.settleFlight flight key block, node.connected,
        { flight with settled := true } :: node.flights.erase flight⟩
  | endJoin flight => flight ∈ node.flights ∧ flight.settled = true ∧
      node' = ⟨node.server.endFlight flight, node.connected, node.flights.erase flight⟩
  | reapChannel folded => node' = ⟨node.server.reapChannel folded, node.connected, node.flights⟩
  | cmdRename id old newName reason => node.Free id ∧
      node' = ⟨node.server.cmdRename id old newName reason, node.connected,
        node.follow old newName (node.server.cmdRename id old newName reason).channels⟩
  | remoteRename source old newName reason =>
      node' = ⟨node.server.remoteRename source old newName reason, node.connected,
        node.follow old newName (node.server.remoteRename source old newName reason).channels⟩
  | elsewhere gone => Undisturbed node.server.toTables node'.server.toTables ∧
      Tended (fun _ who => ∃ uid ∈ gone, who = .inr uid) node.server.channels node'.server.channels ∧
      node'.connected = node.connected ∧ node'.flights = node.flights

/-- A server starts without clients and channels. -/
def machine : Machine Lobby LifecycleCall where
  start node := node.server.clients = ∅ ∧ node.server.channels = ∅ ∧ node.connected = [] ∧ node.flights = []
  step node call node' := call.Performs node node'

/-- No rename gives another key to a channel that a join in flight is about. -/
def KeepsFiled (node : Lobby) : LifecycleCall → Prop
  | cmdRename id old newName _ => isValidChannel newName = true → node.server.IsOperator id (node.server.fold old) →
      node.Rekeys old newName → ∀ flight ∈ node.flights, flight.filed ≠ node.server.fold old
  | remoteRename _ old newName _ => node.Rekeys old newName →
      ∀ flight ∈ node.flights, flight.filed ≠ node.server.fold old
  | _ => True

/-- The client or remote user that a step takes out of a channel. -/
def Leaves (node : Lobby) (folded : String) (who : Occupant) : LifecycleCall → Prop
  | session (.partOne id name _) => folded = node.server.fold name ∧ who = .inl id
  | session (.kickOne _ chan targetNick _) => folded = node.server.fold chan ∧
      match who with
      | .inl id => node.server.findClient (node.server.fold targetNick) = some id
      | .inr uid => ∃ user, node.server.findRemoteUser (node.server.fold targetNick) = some user ∧ user.uid = uid
  | session (.remoteKick channelName _ targetUid _) => folded = node.server.fold channelName ∧
      match who with
      | .inl id => node.server.localIdOfUid targetUid = some id
      | .inr uid => uid = targetUid
  | session (.closeConnection id _) => who = .inl id
  | session (.completeRegistration id _) => who = .inl id
  | elsewhere gone => ∃ uid ∈ gone, who = .inr uid
  | _ => False

/-- The key under which a step files the channel that was filed under `folded`. -/
def refile (node node' : Lobby) (folded : String) : LifecycleCall → String
  | cmdRename _ old newName _ | remoteRename _ old newName _ =>
      if folded = node.server.fold old ∧ folded ∉ node'.server.channels then node.server.fold newName else folded
  | _ => folded

end LifecycleCall

/-- The clients and channels agree, every channel is in use, and the channels count the joins in
flight, each of which knows where its channel is. -/
structure Lobby.Consistent (node : Lobby) : Prop where
  locals : LocalConsistent node.server.toTables node.connected
  busy : NoneIdle node.server.channels
  counted : ∀ folded, joiningAt node.server.channels folded =
    node.flights.countP fun flight => flight.filed = folded
  filed : ∀ flight ∈ node.flights, flight.filed = flight.folded

namespace Lobby.Consistent

variable {node node' : Lobby}

/-- A step that leaves the channels of the joins in flight alone. -/
theorem tended (inv : node.Consistent) {leaves : String → Occupant → Prop}
    (locals : LocalConsistent node'.server.toTables node'.connected)
    (same : Tended leaves node.server.channels node'.server.channels)
    (flights : (node'.flights.map fun flight => (flight.filed, flight.folded)).Perm
      (node.flights.map fun flight => (flight.filed, flight.folded))) : node'.Consistent := by
  have counts : ∀ (joins : List Flight) folded, joins.countP (fun flight => flight.filed = folded) =
      (joins.map fun flight => (flight.filed, flight.folded)).countP fun keys => keys.1 = folded := by
    intro joins folded
    rw [List.countP_map]
    rfl
  constructor
  case locals => exact locals
  case busy => exact same.busy inv.busy
  case counted =>
    intro folded
    rw [same.counted, inv.counted, counts, counts]
    exact (flights.countP_eq _).symm
  case filed =>
    intro flight inFlight
    have inMap := flights.mem_iff.mp (List.mem_map_of_mem inFlight)
    obtain ⟨before, wasInFlight, same⟩ := List.mem_map.mp inMap
    simp only [Prod.mk.injEq] at same
    rw [← same.1, ← same.2]
    exact inv.filed before wasInFlight

/-- A join in flight has its channel in the table. -/
theorem filed_mem (inv : node.Consistent) {flight : Flight} (inFlight : flight ∈ node.flights) :
    flight.filed ∈ node.server.channels := by
  have positive : 0 < joiningAt node.server.channels flight.filed := by
    rw [inv.counted, List.countP_pos_iff]
    exact ⟨flight, inFlight, by simp⟩
  refine AList.lookup_isSome.mp (Option.isSome_iff_ne_none.mpr fun absent => ?_)
  rw [joiningAt_of_absent absent] at positive
  exact absurd positive (Nat.lt_irrefl 0)

end Lobby.Consistent

namespace LifecycleCall

variable {node node' : Lobby}

/-- The commands taken in one step. -/
theorem session_tended {call : SessionCall} {actor : Option UInt64} (acts : call.actor = some actor)
    (performed : call.Performs ⟨node.server, node.connected⟩ ⟨node'.server, node'.connected⟩) :
    Tended (fun folded who => (session call).Leaves node folded who) node.server.channels node'.server.channels := by
  cases call with
  | connect host =>
    have after : node'.server = node.server.connect host := congrArg Node.server performed.2
    exact .of_eq (by rw [after]; rfl)
  | cmdNick id nick =>
    have after : node'.server = node.server.cmdNick id nick := congrArg Node.server performed.2
    exact .of_eq (by rw [after, (Server.cmdNick_rooms node.server id nick).1])
  | cmdUser id params =>
    have after : node'.server = node.server.cmdUser id params := congrArg Node.server performed.2
    rw [after]
    obtain same | ⟨user, realname, said⟩ := node.server.cmdUser_cases id params
    · exact .of_eq (by rw [same])
    · exact .of_eq (by rw [said])
  | completeRegistration id cloak =>
    have after : node'.server = node.server.completeRegistration id cloak := congrArg Node.server performed.2.2
    rw [after]
    exact Server.completeRegistration_tended _ _ _
  | closeConnection id reason =>
    have after : node'.server = node.server.closeConnection id reason := congrArg Node.server performed.2
    rw [after]
    exact Server.closeConnection_tended _ _ _
  | partOne id name reason =>
    have after : node'.server = node.server.partOne id name reason := congrArg Node.server performed
    rw [after]
    obtain same | parted := node.server.partOne_cases id name reason
    · exact .of_eq (congrArg (fun t : Tables => t.channels) same)
    · rw [parted]
      exact .dropLocal _ _ _
  | kickOne id chan targetNick reason =>
    have after : node'.server = node.server.kickOne id chan targetNick reason := congrArg Node.server performed
    rw [after]
    obtain same | ⟨other, target, kicked⟩ | ⟨user, target, kicked⟩ :=
      node.server.kickOne_cases id chan targetNick reason
    · exact .of_eq (congrArg (fun t : Tables => t.channels) same)
    · rw [kicked]
      refine (Tended.dropLocal _ _ _).weaken ?_
      rintro folded who ⟨here, rfl⟩
      exact ⟨here, target⟩
    · rw [kicked]
      refine (Tended.dropRemote _ _ _).weaken ?_
      rintro folded who ⟨here, rfl⟩
      exact ⟨here, user, target, rfl⟩
  | remoteKick channelName source targetUid reason =>
    have after : node'.server = node.server.remoteKick channelName source targetUid reason :=
      congrArg Node.server performed
    rw [after]
    obtain same | ⟨id, own, kicked⟩ | ⟨-, -, kicked⟩ :=
      Server.remoteKick_toTables node.server channelName source targetUid reason
    · exact .of_eq (congrArg (fun t : Tables => t.channels) same)
    · rw [kicked]
      refine (Tended.dropLocal _ _ _).weaken ?_
      rintro folded who ⟨here, rfl⟩
      exact ⟨here, own⟩
    · rw [kicked]
      refine (Tended.dropRemote _ _ _).weaken ?_
      rintro folded who ⟨here, rfl⟩
      exact ⟨here, rfl⟩
  -- calls without an actor here have their own steps in the lobby
  | joinOne id name key => cases acts
  | cmdRename id old newName reason => cases acts
  | receive peerSid message => cases acts
  | killByUid uid reason => cases acts
  | acceptRemoteUser user => cases acts
  | remoteNickChange uid newNick => cases acts
  | dropLink sid => cases acts
  | elsewhere => cases acts

/-! ### Renames -/

/-- The members of a renamed channel are found where it is filed now. -/
theorem renamed_occupies {old newName : String} {later renamed : Server}
    (result : node.server.renameChannel (node.server.fold old) newName = .ok renamed)
    (same : later.toTables = renamed.toTables) {folded : String} {who : Occupant}
    (occupied : Occupies node.server.channels folded who) :
    Occupies later.channels (if folded = node.server.fold old ∧ folded ∉ later.channels then
      node.server.fold newName else folded) who := by
  have channels : later.channels = renamed.channels := congrArg (fun t : Tables => t.channels) same
  rw [channels]
  -- the members move with the channel, unless only the case of its name changed
  obtain ⟨tended, present⟩ | ⟨channel, found, apart, free, lookup⟩ := Server.renameChannel_lookup result
  · have stays : ¬ (folded = node.server.fold old ∧ folded ∉ renamed.channels) := by
      rintro ⟨rfl, gone⟩
      exact gone present
    rw [if_neg stays]
    exact (tended fun _ _ => False).kept folded who occupied fun left => left
  · obtain ⟨other, stored, member⟩ := occupied
    by_cases isOld : folded = node.server.fold old
    · subst isOld
      rw [found] at stored
      cases stored
      have gone : node.server.fold old ∉ renamed.channels := by
        rw [← AList.lookup_eq_none, lookup, if_pos rfl]
      rw [if_pos ⟨rfl, gone⟩]
      refine ⟨{ channel with name := newName }, ?_, ?_⟩
      · rw [lookup, if_neg apart, if_pos rfl]
      · cases who <;> exact member
    · rw [if_neg fun moved => isOld moved.1]
      have notNew : folded ≠ node.server.fold newName := by
        rintro rfl
        rw [AList.lookup_eq_none.mpr free] at stored
        cases stored
      refine ⟨other, ?_, member⟩
      rw [lookup, if_neg isOld, if_neg notNew, stored]

/-- A rename that is carried out while no join in flight is about the channel. -/
theorem renamed_consistent (inv : node.Consistent) {old newName : String} {later renamed : Server}
    (result : node.server.renameChannel (node.server.fold old) newName = .ok renamed)
    (same : later.toTables = renamed.toTables)
    (safe : node.Rekeys old newName → ∀ flight ∈ node.flights, flight.filed ≠ node.server.fold old) :
    (⟨later, node.connected, node.follow old newName later.channels⟩ : Lobby).Consistent := by
  have channels : later.channels = renamed.channels := congrArg (fun t : Tables => t.channels) same
  have locals : LocalConsistent later.toTables node.connected := (inv.locals.renamedChannel result).of_toTables same
  rw [channels]
  obtain ⟨tended, present⟩ | ⟨channel, found, apart, free, lookup⟩ := Server.renameChannel_lookup result
  · -- the channel stays where it is
    have followed : node.follow old newName renamed.channels = node.flights := by
      refine (List.map_congr_left fun flight _ => ?_).trans (List.map_id _)
      rw [if_neg fun moved => moved.2 present]
      rfl
    exact inv.tended locals (by rw [channels]; exact tended fun _ _ => False) (followed ▸ .refl _)
  · have rekeys : node.Rekeys old newName := ⟨AList.lookup_isSome.mp (by rw [found]; rfl), apart, free⟩
    have followed : node.follow old newName renamed.channels = node.flights := by
      refine (List.map_congr_left fun flight inFlight => ?_).trans (List.map_id _)
      rw [if_neg fun moved => safe rekeys flight inFlight moved.1]
      rfl
    -- no join in flight is about the channel that moves
    have noFlights : joiningAt node.server.channels (node.server.fold old) = 0 := by
      rw [inv.counted, List.countP_eq_zero]
      intro flight inFlight
      simpa using safe rekeys flight inFlight
    have absent : node.server.channels.lookup (node.server.fold newName) = none := AList.lookup_eq_none.mpr free
    constructor
    case locals => exact locals
    case busy =>
      intro folded other stored
      rw [channels, lookup] at stored
      split at stored
      · cases stored
      · split at stored
        · cases stored
          exact inv.busy _ channel found
        · exact inv.busy folded other stored
    case counted =>
      intro folded
      have counts := inv.counted folded
      show joiningAt later.channels folded =
        (node.follow old newName renamed.channels).countP fun flight => flight.filed = folded
      rw [followed, ← counts, channels, joiningAt, lookup]
      by_cases isOld : folded = node.server.fold old
      · rw [if_pos isOld, isOld, noFlights]
        rfl
      · rw [if_neg isOld]
        by_cases isNew : folded = node.server.fold newName
        · rw [if_pos isNew, isNew, joiningAt_of_absent absent]
          rw [joiningAt_of_lookup found] at noFlights
          exact noFlights
        · rw [if_neg isNew, joiningAt]
    case filed =>
      show ∀ flight ∈ node.follow old newName renamed.channels, flight.filed = flight.folded
      rw [followed]
      exact inv.filed

/-! ### Joins -/

theorem begun_kept (inv : node.Consistent) (id : UInt64) (name : String) :
    (⟨(node.server.beginFlight id name).1, node.connected,
        (node.server.beginFlight id name).2 :: node.flights⟩ : Lobby).Consistent ∧
      ∀ folded who, Occupies node.server.channels folded who →
        Occupies (node.server.beginFlight id name).1.channels folded who := by
  obtain ⟨channel, stored, joining, members, others⟩ :=
    node.server.beginJoin_channels (node.server.fold name) name
  constructor
  · constructor
    case locals => exact inv.locals.undisturbed (.beginJoin node.server name)
    case busy =>
      intro folded other found
      by_cases here : folded = node.server.fold name
      · subst here
        -- a channel with a join in flight is not idle
        cases found.symm.trans stored
        rw [← Bool.not_eq_true, ChannelEntry.isIdle_iff]
        intro idle
        omega
      · exact inv.busy folded other ((others folded here).symm.trans found)
    case counted =>
      intro folded
      have counts := inv.counted folded
      show joiningAt (node.server.beginJoin (node.server.fold name) name).1.channels folded = _
      rw [List.countP_cons, ← counts]
      by_cases here : folded = node.server.fold name
      · subst here
        rw [joiningAt_of_lookup stored, joining]
        simp [Server.beginFlight]
      · rw [joiningAt, others folded here, joiningAt]
        simp [Server.beginFlight, Ne.symm here]
    case filed =>
      intro flight inFlight
      rcases List.mem_cons.mp inFlight with rfl | inFlight
      · rfl
      · exact inv.filed flight inFlight
  · rintro folded who occupied
    by_cases here : folded = node.server.fold name
    · subst here
      exact ⟨channel, stored, members who occupied⟩
    · obtain ⟨other, found, member⟩ := occupied
      exact ⟨other, (others folded here).trans found, member⟩

theorem settled_kept (inv : node.Consistent) {flight : Flight} (inFlight : flight ∈ node.flights)
    (isOpen : flight.id ∈ node.connected) (registered : (node.server.entry flight.id).registered = true)
    (key block : Option String) :
    (⟨node.server.settleFlight flight key block, node.connected,
        { flight with settled := true } :: node.flights.erase flight⟩ : Lobby).Consistent ∧
      ∀ folded who, Occupies node.server.channels folded who →
        Occupies (node.server.settleFlight flight key block).channels folded who := by
  have flights : (({ flight with settled := true } :: node.flights.erase flight).map fun flight =>
      (flight.filed, flight.folded)).Perm (node.flights.map fun flight => (flight.filed, flight.folded)) := by
    have split := (List.perm_cons_erase inFlight).map fun flight : Flight => (flight.filed, flight.folded)
    exact split.symm
  obtain ⟨t, undisturbed, tended, same | ⟨present, status, entered⟩⟩ :=
    node.server.settleFlight_cases flight key block
  · have channels : (node.server.settleFlight flight key block).channels = t.channels :=
      congrArg (fun t : Tables => t.channels) same
    have kept := tended fun _ _ => False
    rw [← channels] at kept
    refine ⟨inv.tended ((inv.locals.undisturbed undisturbed).of_toTables same) kept flights, ?_⟩
    exact fun folded who occupied => kept.kept folded who occupied fun left => left
  · have stillRegistered : (t.entry flight.id).registered = true := by
      rw [(undisturbed.clients.keeps flight.id).2]
      exact registered
    have added : Tended (fun _ _ => False) t.channels (t.channels.modify flight.filed fun channel =>
        channel.addLocal flight.id status) := by
      refine .modify (fun _ => rfl) fun channel who member => ?_
      cases who with
      | inl id => exact (AList.mem_insert _).mpr (.inr member)
      | inr uid => exact member
    have channels : (node.server.settleFlight flight key block).channels = t.channels.modify flight.filed
        fun channel => channel.addLocal flight.id status := congrArg (fun t : Tables => t.channels) entered
    have kept := (tended fun _ _ => False).trans added
    rw [← channels] at kept
    -- the client records the key under which the channel is filed
    have locals : LocalConsistent (node.server.settleFlight flight key block).toTables node.connected := by
      rw [entered, ← inv.filed flight inFlight]
      exact (inv.locals.undisturbed undisturbed).entered present isOpen stillRegistered
    refine ⟨inv.tended locals kept flights, ?_⟩
    exact fun folded who occupied => kept.kept folded who occupied fun left => left

theorem ended_kept (inv : node.Consistent) {flight : Flight} (inFlight : flight ∈ node.flights) :
    (⟨node.server.endFlight flight, node.connected, node.flights.erase flight⟩ : Lobby).Consistent ∧
      ∀ folded who, Occupies node.server.channels folded who →
        Occupies (node.server.endFlight flight).channels folded who := by
  have tables : (node.server.endFlight flight).toTables = { node.server.toTables with
      channels := reap (node.server.channels.modify flight.filed fun channel =>
        { channel with joining := channel.joining - 1 }) flight.filed } := by
    rw [Server.endFlight, ← inv.filed flight inFlight, Server.reapChannel_toTables]
    rfl
  have channels : (node.server.endFlight flight).channels =
      reap (node.server.channels.modify flight.filed fun channel =>
        { channel with joining := channel.joining - 1 }) flight.filed :=
    congrArg (fun t : Tables => t.channels) tables
  rw [channels]
  constructor
  · constructor
    case locals =>
      have joined : SameRooms node.server.fold node.server.channels (node.server.channels.modify flight.filed
          fun channel => { channel with joining := channel.joining - 1 }) := .modify fun _ _ => ⟨rfl, rfl⟩
      refine inv.locals.undisturbed ?_
      rw [tables]
      exact .of_rooms rfl rfl (joined.trans (.reap _ flight.filed))
    case busy =>
      rw [channels]
      exact noneIdle_reaped inv.busy
    case counted =>
      intro folded
      have counts := inv.counted folded
      -- the flight that ends is one of those that are counted
      rw [(List.perm_cons_erase inFlight).countP_eq, List.countP_cons] at counts
      rw [channels, joiningAt_reaped]
      by_cases here : folded = flight.filed
      · subst here
        rw [if_pos rfl]
        simp only [decide_true, if_true] at counts
        cases stored : node.server.channels.lookup flight.filed with
        | none =>
          rw [joiningAt_of_absent stored] at counts
          omega
        | some channel =>
          rw [joiningAt_of_lookup stored] at counts
          show channel.joining - 1 = (node.flights.erase flight).countP fun other => other.filed = flight.filed
          omega
      · rw [if_neg here]
        simpa [Ne.symm here] using counts
    case filed => exact fun other stillIn => inv.filed other (List.mem_of_mem_erase stillIn)
  · intro folded who occupied
    refine occupies_reaped occupied fun _ channel member => ?_
    cases who <;> exact member

/-! ### All steps -/

/-- A rename that is not carried out. -/
theorem unrenamed_consistent (inv : node.Consistent) {old newName : String} {later : Server}
    (same : later.toTables = node.server.toTables) :
    (⟨later, node.connected, node.follow old newName later.channels⟩ : Lobby).Consistent := by
  have channels : later.channels = node.server.channels := congrArg (fun t : Tables => t.channels) same
  have followed : node.follow old newName later.channels = node.flights := by
    refine (List.map_congr_left fun flight inFlight => ?_).trans (List.map_id _)
    rw [if_neg]
    · rfl
    · rintro ⟨here, gone⟩
      rw [channels, ← here] at gone
      exact gone (inv.filed_mem inFlight)
  have unchanged : Tended (fun _ _ => False) node.server.channels later.channels := .of_eq channels
  exact inv.tended (inv.locals.of_toTables same) unchanged (followed ▸ .refl _)

theorem unrenamed_occupies {old newName : String} {later : Server}
    (same : later.toTables = node.server.toTables) {folded : String} {who : Occupant}
    (occupied : Occupies node.server.channels folded who) :
    Occupies later.channels (if folded = node.server.fold old ∧ folded ∉ later.channels then
      node.server.fold newName else folded) who := by
  have channels : later.channels = node.server.channels := congrArg (fun t : Tables => t.channels) same
  rw [channels, if_neg]
  · exact occupied
  · rintro ⟨-, gone⟩
    obtain ⟨channel, found, -⟩ := occupied
    exact gone (AList.lookup_isSome.mp (by rw [found]; rfl))

theorem perform_consistent {call : LifecycleCall} (inv : node.Consistent) (safe : call.KeepsFiled node)
    (performed : call.Performs node node') : node'.Consistent := by
  cases call with
  | session call =>
    obtain ⟨actor, acts, -, performed, flights⟩ := performed
    exact inv.tended (SessionCall.perform_localConsistent inv.locals performed) (session_tended acts performed)
      (flights ▸ .refl _)
  | beginJoin id name =>
    obtain ⟨-, -, -, -, rfl⟩ := performed
    exact (begun_kept inv id name).1
  | settleJoin flight key block =>
    obtain ⟨inFlight, -, isOpen, registered, rfl⟩ := performed
    exact (settled_kept inv inFlight isOpen registered key block).1
  | endJoin flight =>
    obtain ⟨inFlight, -, rfl⟩ := performed
    exact (ended_kept inv inFlight).1
  | reapChannel folded =>
    cases performed
    have rooms : Undisturbed node.server.toTables (node.server.reapChannel folded).toTables := by
      rw [Server.reapChannel_toTables]
      exact .of_rooms rfl rfl (.reap _ folded)
    have reaped : Tended (fun _ _ => False) node.server.channels (node.server.reapChannel folded).channels := by
      rw [Server.reapChannel_toTables]
      exact .reap _ folded
    exact inv.tended (inv.locals.undisturbed rooms) reaped (.refl _)
  | cmdRename id old newName reason =>
    obtain ⟨-, rfl⟩ := performed
    obtain same | ⟨valid, operator, renamed, result, same⟩ := node.server.cmdRename_cases id old newName reason
    · exact unrenamed_consistent inv same
    · exact renamed_consistent inv result same (safe valid operator)
  | remoteRename source old newName reason =>
    cases performed
    obtain same | ⟨renamed, result, same⟩ := node.server.remoteRename_toTables source old newName reason
    · exact unrenamed_consistent inv same
    · exact renamed_consistent inv result same safe
  | elsewhere gone =>
    obtain ⟨undisturbed, tended, connected, flights⟩ := performed
    refine inv.tended ?_ tended (flights ▸ .refl _)
    rw [connected]
    exact inv.locals.undisturbed undisturbed

/-- Whoever a step does not take out of a channel is still in it afterwards. -/
theorem perform_occupies {call : LifecycleCall} (inv : node.Consistent) (performed : call.Performs node node')
    {folded : String} {who : Occupant} (occupied : Occupies node.server.channels folded who)
    (stays : ¬ call.Leaves node folded who) :
    Occupies node'.server.channels (call.refile node node' folded) who := by
  cases call with
  | session call =>
    obtain ⟨actor, acts, -, performed, -⟩ := performed
    exact (session_tended acts performed).kept folded who occupied stays
  | beginJoin id name =>
    obtain ⟨-, -, -, -, rfl⟩ := performed
    exact (begun_kept inv id name).2 folded who occupied
  | settleJoin flight key block =>
    obtain ⟨inFlight, -, isOpen, registered, rfl⟩ := performed
    exact (settled_kept inv inFlight isOpen registered key block).2 folded who occupied
  | endJoin flight =>
    obtain ⟨inFlight, -, rfl⟩ := performed
    exact (ended_kept inv inFlight).2 folded who occupied
  | reapChannel key =>
    cases performed
    have reaped : Tended (fun _ _ => False) node.server.channels (node.server.reapChannel key).channels := by
      rw [Server.reapChannel_toTables]
      exact .reap _ key
    exact reaped.kept folded who occupied fun left => left
  | cmdRename id old newName reason =>
    obtain ⟨-, rfl⟩ := performed
    obtain same | ⟨-, -, renamed, result, same⟩ := node.server.cmdRename_cases id old newName reason
    · exact unrenamed_occupies same occupied
    · exact renamed_occupies result same occupied
  | remoteRename source old newName reason =>
    cases performed
    obtain same | ⟨renamed, result, same⟩ := node.server.remoteRename_toTables source old newName reason
    · exact unrenamed_occupies same occupied
    · exact renamed_occupies result same occupied
  | elsewhere gone =>
    obtain ⟨-, tended, -, -⟩ := performed
    exact tended.kept folded who occupied stays

end LifecycleCall

/-- What is promised of the channels. -/
structure Lobby.Promised (node : Lobby) : Prop where
  inFlight : ∀ flight ∈ node.flights, flight.filed ∈ node.server.channels
  removed : ∀ (call : LifecycleCall) (node' : Lobby), call.Performs node node' →
    ∀ folded ∈ node.server.channels, call.refile node node' folded ∉ node'.server.channels →
      ∀ who, Occupies node.server.channels folded who → call.Leaves node folded who
  occupied : node.flights = [] → ∀ folded ∈ node.server.channels, ∃ who, Occupies node.server.channels folded who
  recorded : node.flights = [] → ∀ folded id, isMember node.server.channels folded id = true →
    folded ∈ (node.server.entry id).channels

namespace LifecycleCall

/-- In every run in which no rename gives another key to a channel that a join in flight is about, a
channel with a member or a join in flight is never removed, and when no join is in flight every
channel has a member and every client knows where its channels are. -/
theorem run_promised {node : Lobby} (run : machine.GuardedRun (fun node call => call.KeepsFiled node) node) :
    node.Promised := by
  have inv : node.Consistent := by
    refine run.invariant (I := Lobby.Consistent) ?_ ?_
    · rintro start ⟨noClients, noChannels, noConnections, noFlights⟩
      constructor
      case locals =>
        have started : SessionCall.machine.Reachable ⟨start.server, start.connected⟩ :=
          .start ⟨noClients, noChannels, noConnections⟩
        exact SessionCall.run_localConsistent started
      case busy =>
        intro folded channel found
        rw [noChannels] at found
        cases found
      case counted =>
        intro folded
        rw [noChannels, noFlights]
        rfl
      case filed =>
        rw [noFlights]
        exact fun flight inFlight => absurd inFlight List.not_mem_nil
    · exact fun node call next inv safe performed => perform_consistent inv safe performed
  constructor
  case inFlight => exact fun flight inFlight => inv.filed_mem inFlight
  case removed =>
    intro call node' performed folded _ gone who occupied
    by_contra stays
    obtain ⟨channel, found, -⟩ := perform_occupies inv performed occupied stays
    exact gone (AList.lookup_isSome.mp (by rw [found]; rfl))
  case occupied =>
    intro quiescent folded present
    obtain ⟨channel, found⟩ := Option.isSome_iff_exists.mp (AList.lookup_isSome.mpr present)
    have counts := inv.counted folded
    -- with no flight left nothing is joining, so a channel without occupants would be idle
    rw [quiescent, joiningAt_of_lookup found] at counts
    by_contra empty
    have busy := inv.busy folded channel found
    rw [← Bool.not_eq_true, ChannelEntry.isIdle_iff] at busy
    exact busy ⟨fun who member => empty ⟨who, channel, found, member⟩, counts⟩
  case recorded => exact fun _ folded id member => ((inv.locals.memberOf folded id).mp member).2

/-- A command while no join is in flight. -/
theorem quietStep {guard : Lobby → LifecycleCall → Prop} {s s' : Server} {connected connected' : List UInt64}
    {actor : Option UInt64} (call : SessionCall) (run : machine.GuardedRun guard ⟨s, connected, []⟩)
    (allowed : guard ⟨s, connected, []⟩ (session call)) (acts : call.actor = some actor)
    (performed : call.Performs ⟨s, connected⟩ ⟨s', connected'⟩) : machine.GuardedRun guard ⟨s', connected', []⟩ :=
  .step (e := session call) run allowed
    ⟨actor, acts, fun _ _ _ inFlight => absurd inFlight List.not_mem_nil, performed, rfl⟩

def aliceRegistered : Server :=
  (((Server.alpha.connect "a.example").cmdNick 1 "alice").cmdUser 1 ["alice", "0", "*", "Alice"]).completeRegistration 1
    "a.cloak"

/-- Alice and bob are registered. -/
def twoOnline : Server :=
  (((aliceRegistered.connect "b.example").cmdNick 2 "bob").cmdUser 2 ["bob", "0", "*", "Bob"]).completeRegistration 2
    "b.cloak"

def aliceJoins : Flight := (twoOnline.beginFlight 1 "#den").2

/-- Alice has joined `#den`. -/
def aliceIn : Server :=
  ((twoOnline.beginFlight 1 "#den").1.settleFlight aliceJoins none none).endFlight { aliceJoins with settled := true }

theorem quietRegistration {guard : Lobby → LifecycleCall → Prop} {s : Server} {connected : List UInt64}
    {id : UInt64} {cloak : String} (run : machine.GuardedRun guard ⟨s, connected, []⟩)
    (allowed : guard ⟨s, connected, []⟩ (session (.completeRegistration id cloak))) (isOpen : id ∈ connected)
    (nicked : (s.entry id).nick ≠ "*") (unbanned : (s.matchesKline (s.entry id).realHostmask).isSome = false) :
    machine.GuardedRun guard ⟨s.completeRegistration id cloak, connected, []⟩ := by
  refine quietStep (.completeRegistration id cloak) run allowed rfl ⟨isOpen, nicked, ?_⟩
  simp only [unbanned, Bool.false_eq_true, if_false]

theorem twoOnline_run : machine.GuardedRun (fun node call => call.KeepsFiled node) ⟨twoOnline, [2, 1], []⟩ := by
  have started : machine.GuardedRun (fun node call => call.KeepsFiled node) ⟨Server.alpha, [], []⟩ :=
    .start ⟨rfl, rfl, rfl, rfl⟩
  have connected := quietStep (.connect "a.example") started trivial rfl ⟨by decide, rfl⟩
  have nicked := quietStep (.cmdNick 1 "alice") connected trivial rfl ⟨by decide, rfl⟩
  have named := quietStep (.cmdUser 1 ["alice", "0", "*", "Alice"]) nicked trivial rfl ⟨by decide, rfl⟩
  have registered : machine.GuardedRun (fun node call => call.KeepsFiled node) ⟨aliceRegistered, [1], []⟩ :=
    quietRegistration named trivial (by decide) (by decide) (by decide)
  have connected := quietStep (.connect "b.example") registered trivial rfl ⟨by decide, rfl⟩
  have nicked := quietStep (.cmdNick 2 "bob") connected trivial rfl ⟨by decide, rfl⟩
  have named := quietStep (.cmdUser 2 ["bob", "0", "*", "Bob"]) nicked trivial rfl ⟨by decide, rfl⟩
  exact quietRegistration named trivial (by decide) (by decide) (by decide)

theorem aliceIn_run : machine.GuardedRun (fun node call => call.KeepsFiled node) ⟨aliceIn, [2, 1], []⟩ := by
  have begun : machine.GuardedRun (fun node call => call.KeepsFiled node)
      ⟨(twoOnline.beginFlight 1 "#den").1, [2, 1], [aliceJoins]⟩ :=
    .step (e := beginJoin 1 "#den") twoOnline_run trivial
      ⟨fun _ inFlight => absurd inFlight List.not_mem_nil, by decide, by decide, by decide, rfl⟩
  have settled : machine.GuardedRun (fun node call => call.KeepsFiled node)
      ⟨(twoOnline.beginFlight 1 "#den").1.settleFlight aliceJoins none none, [2, 1],
        [{ aliceJoins with settled := true }]⟩ :=
    .step (e := settleJoin aliceJoins none none) begun trivial
      ⟨List.mem_singleton_self _, by decide, by decide, by decide, by simp⟩
  exact .step (e := endJoin { aliceJoins with settled := true }) settled trivial
    ⟨List.mem_singleton_self _, rfl, by simp [aliceIn]⟩

theorem run_promised_alice : (⟨aliceIn, [2, 1], []⟩ : Lobby).Promised :=
  run_promised aliceIn_run

/-- Bob begins to join `#den`. -/
def bobJoins : Flight := (aliceIn.beginFlight 2 "#den").2

/-- Alice renames it meanwhile. -/
def denMoved : Server := (aliceIn.beginFlight 2 "#den").1.cmdRename 1 "#den" "#lair" ""

/-- Bob is let in, under the old name. -/
def bobIn : Server :=
  (denMoved.settleFlight { bobJoins with filed := "#lair" } none none).endFlight
    { bobJoins with filed := "#lair", settled := true }

/-- A rename during a join leaves the client with a channel that is not there. -/
theorem rename_strands : ¬ ∀ node, machine.Reachable node → node.Promised := by
  intro promised
  have begun : machine.Reachable ⟨(aliceIn.beginFlight 2 "#den").1, [2, 1], [bobJoins]⟩ :=
    .step (e := beginJoin 2 "#den") aliceIn_run.reachable trivial
      ⟨fun _ inFlight => absurd inFlight List.not_mem_nil, by decide, by decide, by decide, rfl⟩
  have moved : machine.Reachable ⟨denMoved, [2, 1], [{ bobJoins with filed := "#lair" }]⟩ := by
    refine .step (e := cmdRename 1 "#den" "#lair" "") begun trivial ⟨?_, ?_⟩
    · intro flight inFlight
      rw [List.mem_singleton.mp inFlight]
      decide
    · have followed : (⟨(aliceIn.beginFlight 2 "#den").1, [2, 1], [bobJoins]⟩ : Lobby).follow "#den" "#lair"
          denMoved.channels = [{ bobJoins with filed := "#lair" }] := by decide
      exact congrArg (Lobby.mk denMoved [2, 1]) followed.symm
  have settled : machine.Reachable ⟨denMoved.settleFlight { bobJoins with filed := "#lair" } none none, [2, 1],
      [{ bobJoins with filed := "#lair", settled := true }]⟩ :=
    .step (e := settleJoin { bobJoins with filed := "#lair" } none none) moved trivial
      ⟨List.mem_singleton_self _, by decide, by decide, by decide, by simp⟩
  have ended : machine.Reachable ⟨bobIn, [2, 1], []⟩ :=
    .step (e := endJoin { bobJoins with filed := "#lair", settled := true }) settled trivial
      ⟨List.mem_singleton_self _, rfl, by simp [bobIn]⟩
  have recorded := (promised _ ended).recorded rfl "#lair" 2 (by decide)
  exact absurd recorded (by decide)

end LifecycleCall

end Ferrixd
