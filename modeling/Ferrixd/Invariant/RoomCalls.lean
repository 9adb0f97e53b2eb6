import Ferrixd.Invariant.Membership

/-! # Runs of the operations on remote users and their memberships -/

namespace Ferrixd

/-- The registry and the memberships of remote users are both consistent. -/
structure Tables.RemoteConsistent (t : Tables) : Prop where
  registry : t.RegistryConsistent
  members : MembershipConsistent t

namespace Tables

/-- A nick change that wins its new nick from a local client takes it from no remote member. -/
def RenamesSafely (t : Tables) (uid newNick : String) : Prop :=
  t.outranks (t.fold newNick) uid = true → t.VacatesCleanly (t.fold newNick) uid

/-- A host change is about a user in no channel, or changes nothing. -/
def RehostsSafely (t : Tables) (uid host : String) : Prop :=
  t.channelsOf uid = [] ∨ ∀ user, t.remoteUserByUid uid = some user → user.host = host

namespace RemoteConsistent

theorem of_sameRemote {t t' : Tables} (inv : t.RemoteConsistent) (same : SameRemote t t') :
    t'.RemoteConsistent :=
  ⟨same.registryConsistent inv.registry, same.membership inv.members⟩

theorem of_eq {t t' : Tables} (inv : t.RemoteConsistent) (same : t' = t) : t'.RemoteConsistent :=
  inv.of_sameRemote (.of_eq same)

theorem departed {t : Tables} (inv : t.RemoteConsistent) (uid : String) :
    (t.departed uid).RemoteConsistent :=
  ⟨inv.registry.departed uid, inv.members.departed inv.registry uid⟩

theorem departedAll {t : Tables} (inv : t.RemoteConsistent) (uids : List String) :
    (t.departedAll uids).RemoteConsistent :=
  ⟨inv.registry.departedAll uids, inv.members.departedAll inv.registry uids⟩

theorem parted {t : Tables} (inv : t.RemoteConsistent) (folded uid : String) :
    (t.parted folded uid).RemoteConsistent :=
  ⟨inv.registry.of_same rfl rfl, inv.members.parted folded uid⟩

/-- Only the topology changed. -/
theorem topology {t : Tables} (inv : t.RemoteConsistent) (topology : Topology) :
    { t with toTopology := topology }.RemoteConsistent :=
  inv.of_sameRemote ⟨rfl, rfl, rfl, fun _ _ => rfl⟩

/-- A change of a user's own data. -/
theorem updated {t : Tables} (inv : t.RemoteConsistent) {uid : String} {change : RemoteUser → RemoteUser}
    (keepsKeys : ∀ user, (change user).uid = user.uid ∧ (change user).nick = user.nick)
    (safe : t.channelsOf uid = [] ∨ ∀ user, t.remoteUserByUid uid = some user →
      (change user).identity = user.identity) :
    { t with toRegistry := t.toRegistry.update uid change }.RemoteConsistent :=
  ⟨Registry.Consistent.update inv.registry keepsKeys, inv.members.update safe inv.registry⟩

end RemoteConsistent

end Tables

namespace Server

/-! ## Introductions and nick changes -/

theorem acceptRemoteUser_remoteConsistent {s : Server} (inv : s.RemoteConsistent) {user : RemoteUser}
    (safe : s.IntroducesSafely user) : (s.acceptRemoteUser user).1.RemoteConsistent := by
  obtain ⟨keepsNick, clean, refresh⟩ := safe
  refine ⟨(acceptRemoteUser_consistent_iff inv.registry user).mpr keepsNick, ?_⟩
  by_cases wins : s.outranks (s.fold user.nick) user.uid = true
  · -- the nick is vacated first
    obtain ⟨vacated, alone⟩ := inv.members.vacate (clean wins)
    obtain ⟨registry, info⟩ := Tables.RegistryConsistent.vacate_same s.toTables (s.fold user.nick)
    have fold := Tables.RegistryConsistent.vacate_fold s.toTables (s.fold user.nick)
    have tables : (s.acceptRemoteUser user).1.toTables =
        { s.toTables.vacate (s.fold user.nick) with
          toRegistry := (s.toTables.vacate (s.fold user.nick)).toRegistry.remoteInsert
            ((s.toTables.vacate (s.fold user.nick)).fold user.nick) user } := by
      rw [(acceptRemoteUser_wins wins).2, registry, fold]
    rw [tables]
    refine vacated.insert (inv.registry.of_same registry info) ?_ ?_ ?_
    · rw [registry, fold]
      exact keepsNick wins
    · rw [registry, fold]
      exact alone
    · intro holder held own
      rw [registry, fold] at held
      cases refresh (by rw [wins, Bool.true_or]) holder held own with
      | inl same => exact .inl same
      | inr empty =>
        right
        cases MembershipConsistent.channelsOf_vacate s.toTables (s.fold user.nick) user.uid with
        | inl kept => rw [kept, empty]
        | inr gone => exact gone
  have loses : s.outranks (s.fold user.nick) user.uid = false := by simpa using wins
  by_cases refreshes : s.refreshes (s.fold user.nick) user.uid = true
  · rw [acceptRemoteUser_refresh refreshes]
    have own : ∀ holder, s.remoteUsers.lookup (s.fold user.nick) = some holder → holder.uid = user.uid := by
      intro holder held
      rw [Tables.refreshes, Bool.and_eq_true, held] at refreshes
      simpa using refreshes.2
    refine inv.members.insert inv.registry ?_ ?_ (refresh (by rw [refreshes, Bool.or_true]))
    · intro folded index
      obtain ⟨holder, held, same⟩ := Option.any_eq_true _ _ |>.mp
        ((Bool.and_eq_true _ _).mp (by rw [Tables.refreshes] at refreshes; exact refreshes) |>.2)
      have indexed := inv.registry.indexed held
      rw [own holder held, index] at indexed
      exact Option.some.inj indexed
    · intro holder held other
      exact absurd (own holder held) other
  · rw [acceptRemoteUser_loses (by simpa using refreshes) loses]
    exact inv.members

theorem remoteNickChange_remoteConsistent {s : Server} (inv : s.RemoteConsistent) {uid newNick : String}
    (safe : s.RenamesSafely uid newNick) : (s.remoteNickChange uid newNick).1.RemoteConsistent := by
  refine ⟨remoteNickChange_consistent inv.registry uid newNick, ?_⟩
  cases found : s.remoteUserByUid uid with
  | none => simpa only [remoteNickChange, found] using inv.members
  | some old =>
    obtain ⟨own, stored⟩ := inv.registry.known found
    by_cases unchanged : old.nick = newNick
    · simpa only [remoteNickChange, found, if_pos unchanged] using inv.members
    -- a change of case, a nick that is won and one that is lost
    by_cases sameFold : s.fold newNick = s.fold old.nick
    · rw [remoteNickChange_case found unchanged sameFold, applyNickChange_toTables]
      refine inv.members.renamed inv.registry found ?_
      intro holder held other
      rw [sameFold, stored] at held
      cases held
      exact absurd own other
    by_cases wins : s.outranks (s.fold newNick) uid = true
    · rw [(remoteNickChange_wins found sameFold wins).2]
      obtain ⟨vacated, alone⟩ := inv.members.vacate (safe wins)
      obtain ⟨registry, info⟩ := Tables.RegistryConsistent.vacate_same s.toTables (s.fold newNick)
      refine vacated.renamed (inv.registry.of_same registry info) ?_ ?_
      · rw [Tables.remoteUserByUid, registry]
        exact found
      · intro holder held other
        rw [registry, Tables.fold, info] at held
        exact alone holder held other
    · rw [remoteNickChange_loses found sameFold (by simpa using wins), dropLosingChanger_toTables]
      exact inv.members.departed inv.registry uid

theorem remoteChghost_remoteConsistent {s : Server} (inv : s.RemoteConsistent) {uid host : String}
    (safe : s.RehostsSafely uid host) : (s.remoteChghost uid host).RemoteConsistent := by
  rw [remoteChghost, changeRemoteUser_toTables]
  refine inv.updated (fun _ => ⟨rfl, rfl⟩) ?_
  cases safe with
  | inl none => exact .inl none
  | inr same =>
    right
    intro user known
    rw [RemoteUser.identity, ← same user known]
    rfl

/-! ## Departures and splits -/

theorem remoteQuit_remoteConsistent {s : Server} (inv : s.RemoteConsistent) (uid reason : String) :
    (s.remoteQuit uid reason).RemoteConsistent := by
  rw [remoteQuit_toTables]
  exact inv.departed uid

theorem killByUid_remoteConsistent {s : Server} (inv : s.RemoteConsistent) (uid reason : String) :
    (s.killByUid uid reason).RemoteConsistent := by
  rw [killByUid]
  cases s.localIdOfUid uid with
  | none => exact remoteQuit_remoteConsistent inv uid reason
  | some id =>
    show Tables.RemoteConsistent (if id ∈ s.byId then s.requestKill id reason else s).toTables
    split
    · exact inv.of_sameRemote (.locals _ _)
    · exact inv

theorem splitRemoteServer_remoteConsistent {s : Server} (inv : s.RemoteConsistent) (sid reason : String) :
    (s.splitRemoteServer sid reason).RemoteConsistent := by
  rw [splitRemoteServer_toTables, Tables.splitOff]
  exact (inv.topology _).departedAll _

theorem dropLink_remoteConsistent {s : Server} (inv : s.RemoteConsistent) (sid : String) :
    (s.dropLink sid).RemoteConsistent := by
  rw [dropLink_toTables, Tables.linkDropped]
  exact (inv.topology _).departedAll _

/-! ## Channels -/

theorem remoteJoin_remoteConsistent {s : Server} (inv : s.RemoteConsistent) (channelName uid : String)
    (status : MemberPrefix) (peerTs : UInt64) :
    (s.remoteJoin channelName uid status peerTs).RemoteConsistent := by
  cases known : s.remoteUserByUid uid with
  | none =>
    rw [remoteJoin_unknown known]
    exact inv
  | some user =>
    rw [remoteJoin_toTables known]
    exact ⟨inv.registry.of_same rfl rfl, inv.members.joined known channelName status peerTs⟩

theorem remotePart_remoteConsistent {s : Server} (inv : s.RemoteConsistent)
    (channelName uid reason : String) : (s.remotePart channelName uid reason).RemoteConsistent := by
  rw [remotePart_toTables]
  split
  · exact inv.parted _ _
  · exact inv

theorem remoteKick_remoteConsistent {s : Server} (inv : s.RemoteConsistent)
    (channelName source targetUid reason : String) :
    (s.remoteKick channelName source targetUid reason).RemoteConsistent := by
  obtain same | ⟨id, -, kicked⟩ | ⟨-, -, kicked⟩ := remoteKick_toTables s channelName source targetUid reason
  · exact inv.of_eq same
  · rw [kicked]
    exact inv.of_sameRemote (.partedLocal _ _ id)
  · rw [kicked]
    exact inv.parted _ _

theorem expel_remoteConsistent {s : Server} (inv : s.RemoteConsistent) (id : UInt64) (folded : String)
    (channel : ChannelEntry) (target : UInt64 ⊕ RemoteUser) (reason : String) :
    (s.expel id folded channel target reason).RemoteConsistent := by
  simp only [expel]
  cases target with
  | inl other =>
    simp only [propagateToLinks_toTables, reapChannel_toTables]
    exact inv.of_sameRemote (.partedLocal s.toTables folded other)
  | inr user =>
    simp only [propagateToLinks_toTables, reapChannel_toTables]
    exact inv.parted folded user.uid

theorem kickOne_remoteConsistent {s : Server} (inv : s.RemoteConsistent) (id : UInt64)
    (chan targetNick : String) (reason : Option String) :
    (s.kickOne id chan targetNick reason).RemoteConsistent := by
  unfold kickOne
  dsimp only
  split
  · exact inv
  split
  · exact inv
  split
  · exact inv
  split
  · exact inv
  -- the target is a local client or a remote user
  split
  · split
    · exact inv
    · exact expel_remoteConsistent inv _ _ _ _ _
  · split
    · exact inv
    · exact expel_remoteConsistent inv _ _ _ _ _

theorem renameChannel_remoteConsistent {s s' : Server} (inv : s.RemoteConsistent) {oldFolded newName : String}
    (renamed : s.renameChannel oldFolded newName = .ok s') : s'.RemoteConsistent := by
  obtain ⟨⟨-, registry, info⟩, -⟩ := renameChannel_ok renamed
  exact ⟨inv.registry.of_same registry info, inv.members.renamedChannel renamed⟩

theorem remoteRename_remoteConsistent {s : Server} (inv : s.RemoteConsistent)
    (source old new reason : String) : (s.remoteRename source old new reason).RemoteConsistent := by
  obtain same | ⟨moved, renamed, same⟩ := remoteRename_toTables s source old new reason
  · exact inv.of_eq same
  · exact (renameChannel_remoteConsistent inv renamed).of_eq same

theorem cmdRename_remoteConsistent {s : Server} (inv : s.RemoteConsistent) (id : UInt64)
    (old newName reason : String) : (s.cmdRename id old newName reason).RemoteConsistent := by
  rw [cmdRename]
  dsimp only
  split
  · exact inv.of_eq (fail_toTables _ _ _ _ _ _)
  split
  · exact inv
  split
  · exact inv
  split
  · exact inv
  split
  · rename_i moved renamed
    refine (renameChannel_remoteConsistent inv renamed).of_eq ?_
    simp only [propagateToLinks_toTables, broadcastRename_toTables]
  · exact inv.of_eq (fail_toTables _ _ _ _ _ _)
  · exact inv

end Server

/-! ## Runs -/

/-- The calls that change the registry or the memberships of remote users, and changes
elsewhere between them. -/
inductive RoomCall where
  | acceptRemoteUser (user : RemoteUser)
  | remoteNickChange (uid newNick : String)
  | remoteChghost (uid host : String)
  | remoteQuit (uid reason : String)
  | killByUid (uid reason : String)
  | remoteJoin (channelName uid : String) (status : MemberPrefix) (peerTs : UInt64)
  | remotePart (channelName uid reason : String)
  | remoteKick (channelName source targetUid reason : String)
  | remoteRename (source old new reason : String)
  | joinOne (id : UInt64) (name : String) (key : Option String)
  | partOne (id : UInt64) (name : String) (reason : Option String)
  | kickOne (id : UInt64) (chan targetNick : String) (reason : Option String)
  | cmdRename (id : UInt64) (old newName reason : String)
  | closeConnection (id : UInt64) (reason : String)
  | splitRemoteServer (sid reason : String)
  | dropLink (sid : String)
  | elsewhere

namespace RoomCall

def Performs (s s' : Server) : RoomCall → Prop
  | acceptRemoteUser user => s' = (s.acceptRemoteUser user).1
  | remoteNickChange uid newNick => s' = (s.remoteNickChange uid newNick).1
  | remoteChghost uid host => s' = s.remoteChghost uid host
  | remoteQuit uid reason => s' = s.remoteQuit uid reason
  | killByUid uid reason => s' = s.killByUid uid reason
  | remoteJoin channelName uid status peerTs => s' = s.remoteJoin channelName uid status peerTs
  | remotePart channelName uid reason => s' = s.remotePart channelName uid reason
  | remoteKick channelName source targetUid reason => s' = s.remoteKick channelName source targetUid reason
  | remoteRename source old new reason => s' = s.remoteRename source old new reason
  | joinOne id name key => s' = s.joinOne id name key
  | partOne id name reason => s' = s.partOne id name reason
  | kickOne id chan targetNick reason => s' = s.kickOne id chan targetNick reason
  | cmdRename id old newName reason => s' = s.cmdRename id old newName reason
  | closeConnection id reason => s' = s.closeConnection id reason
  | splitRemoteServer sid reason => s' = s.splitRemoteServer sid reason
  | dropLink sid => s' = s.dropLink sid
  | elsewhere => SameRemote s.toTables s'.toTables

/-- A server that starts without remote users and without channels. -/
def machine : Machine Server RoomCall where
  start s := s.toRegistry = ⟨∅, ∅⟩ ∧ s.channels = ∅ ∧ s.remoteChannels = ∅
  step s call s' := call.Performs s s'

/-- The steps that replace no member unpurged and change no member's identity. -/
def KeepsMembers (s : Server) : RoomCall → Prop
  | acceptRemoteUser user => s.IntroducesSafely user
  | remoteNickChange uid newNick => s.RenamesSafely uid newNick
  | remoteChghost uid host => s.RehostsSafely uid host
  | _ => True

theorem perform_remoteConsistent {s s' : Server} {call : RoomCall} (inv : s.RemoteConsistent)
    (safe : call.KeepsMembers s) (performed : call.Performs s s') : s'.RemoteConsistent := by
  cases call with
  | acceptRemoteUser user =>
    cases performed
    exact Server.acceptRemoteUser_remoteConsistent inv safe
  | remoteNickChange uid newNick =>
    cases performed
    exact Server.remoteNickChange_remoteConsistent inv safe
  | remoteChghost uid host =>
    cases performed
    exact Server.remoteChghost_remoteConsistent inv safe
  | remoteQuit uid reason =>
    cases performed
    exact Server.remoteQuit_remoteConsistent inv uid reason
  | killByUid uid reason =>
    cases performed
    exact Server.killByUid_remoteConsistent inv uid reason
  | remoteJoin channelName uid status peerTs =>
    cases performed
    exact Server.remoteJoin_remoteConsistent inv channelName uid status peerTs
  | remotePart channelName uid reason =>
    cases performed
    exact Server.remotePart_remoteConsistent inv channelName uid reason
  | remoteKick channelName source targetUid reason =>
    cases performed
    exact Server.remoteKick_remoteConsistent inv channelName source targetUid reason
  | remoteRename source old new reason =>
    cases performed
    exact Server.remoteRename_remoteConsistent inv source old new reason
  | joinOne id name key =>
    cases performed
    exact inv.of_sameRemote (SameRemote.joinOne s id name key)
  | partOne id name reason =>
    cases performed
    exact inv.of_sameRemote (SameRemote.partOne s id name reason)
  | kickOne id chan targetNick reason =>
    cases performed
    exact Server.kickOne_remoteConsistent inv id chan targetNick reason
  | cmdRename id old newName reason =>
    cases performed
    exact Server.cmdRename_remoteConsistent inv id old newName reason
  | closeConnection id reason =>
    cases performed
    exact inv.of_sameRemote (SameRemote.closeConnection s id reason)
  | splitRemoteServer sid reason =>
    cases performed
    exact Server.splitRemoteServer_remoteConsistent inv sid reason
  | dropLink sid =>
    cases performed
    exact Server.dropLink_remoteConsistent inv sid
  | elsewhere => exact inv.of_sameRemote performed

/-- Both copies of the memberships of remote users agree, every remote member is a registered
user, and its stored identity is that user's, in every state of every run whose steps replace
no member unpurged and change no member's identity. -/
theorem run_membershipConsistent {s : Server} (run : machine.GuardedRun (fun s call => call.KeepsMembers s) s) :
    MembershipConsistent s.toTables := by
  suffices consistent : s.RemoteConsistent from consistent.members
  refine run.invariant (I := fun s => s.RemoteConsistent) ?_ ?_
  · intro state ⟨noUsers, noChannels, noIndex⟩
    constructor
    · rw [Tables.RegistryConsistent, noUsers]
      exact .empty
    · constructor
      · intro folded uid
        simp [memberAt, Tables.channelsOf, noChannels, noIndex]
      · intro folded uid who found
        simp [memberAt, noChannels] at found
  · intro state call next inv safe performed
    exact perform_remoteConsistent inv safe performed

/-- Alice of `beta.example` is introduced and joins `#lean`. -/
def aliceJoined : Server :=
  (Server.alpha.acceptRemoteUser (betaUser "2BBaaa" "alice")).1.remoteJoin "#lean" "2BBaaa" {} 5

theorem run_membershipConsistent_alice : MembershipConsistent aliceJoined.toTables := by
  apply run_membershipConsistent
  refine .step (e := remoteJoin "#lean" "2BBaaa" {} 5)
    (.step (e := acceptRemoteUser (betaUser "2BBaaa" "alice")) (.start ⟨rfl, rfl, rfl⟩) ?_ rfl) trivial rfl
  -- nobody else is known yet
  refine ⟨?_, ?_, ?_⟩
  · intro _ folded index
    cases index
  · intro _ holder held
    cases held
  · intro _ holder held
    cases held

/-- A host change leaves the old host in the memberships. -/
theorem chghost_breaks : ¬ ∀ s, machine.Reachable s → MembershipConsistent s.toTables := by
  intro holds
  have run : machine.Reachable (aliceJoined.remoteChghost "2BBaaa" "other.example") := by
    refine .step (e := remoteChghost "2BBaaa" "other.example") ?_ trivial rfl
    refine .step (e := remoteJoin "#lean" "2BBaaa" {} 5) ?_ trivial rfl
    refine .step (e := acceptRemoteUser (betaUser "2BBaaa" "alice")) ?_ trivial rfl
    exact .start ⟨rfl, rfl, rfl⟩
  have member : memberAt (aliceJoined.remoteChghost "2BBaaa" "other.example").channels "#lean" "2BBaaa" =
      some (betaUser "2BBaaa" "alice").identity := by decide
  have record : (aliceJoined.remoteChghost "2BBaaa" "other.example").remoteUserByUid "2BBaaa" =
      some { betaUser "2BBaaa" "alice" with host := "other.example" } := by decide
  obtain ⟨user, known, same⟩ := (holds _ run).current "#lean" "2BBaaa" _ member
  rw [record] at known
  cases known
  exact absurd same (by decide)

end RoomCall

end Ferrixd
