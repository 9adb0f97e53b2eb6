import Ferrixd.Data.Machine
import Ferrixd.State.Identity
import Ferrixd.State.Topology

/-! # The registry of remote users and its index

Remote users are kept by folded nick and indexed by UID.  Table and index stay inverse to
each other in every run that does not introduce a UID again under another nick. -/

namespace Ferrixd

/-! ## The invariant -/

/-- The index is the inverse of the table, and every user is filed under its own nick. -/
structure Registry.Consistent (fold : String → String) (r : Registry) : Prop where
  inverse : ∀ uid folded, r.remoteByUid.lookup uid = some folded ↔
    ∃ user, r.remoteUsers.lookup folded = some user ∧ user.uid = uid
  filed : ∀ folded user, r.remoteUsers.lookup folded = some user → folded = fold user.nick

namespace Registry

theorem lookup_users_insert (r : Registry) (folded : String) (user : RemoteUser) (place : String) :
    (r.remoteInsert folded user).remoteUsers.lookup place =
      if place = folded then some user else r.remoteUsers.lookup place :=
  Table.lookup_insert_if _ _ _ _

theorem lookup_index_own (r : Registry) (folded : String) (user : RemoteUser) :
    (r.remoteInsert folded user).remoteByUid.lookup user.uid = some folded :=
  AList.lookup_insert _

/-- Of the other UIDs, only the one replaced at the nick loses its index entry. -/
theorem lookup_index_insert (r : Registry) (folded : String) {user : RemoteUser} {uid : String}
    (other : uid ≠ user.uid) :
    (r.remoteInsert folded user).remoteByUid.lookup uid =
      if (r.remoteUsers.lookup folded).any fun prev => prev.uid = uid then none
      else r.remoteByUid.lookup uid := by
  simp only [remoteInsert, Table.lookup_insert_if, if_neg other]
  cases held : r.remoteUsers.lookup folded with
  | none => rfl
  | some prev =>
    by_cases refresh : prev.uid = user.uid
    · have different : ¬ prev.uid = uid := fun same => other (same.symm.trans refresh)
      simp only [Option.bind_some, if_pos refresh, Option.any_some, different, decide_false,
        Bool.false_eq_true, if_false]
    · simp only [Option.bind_some, if_neg refresh, Option.any_some, Table.lookup_erase_if]
      by_cases same : uid = prev.uid
      · simp [same]
      · simp [same, Ne.symm same]

end Registry

namespace Registry.Consistent

variable {fold : String → String} {r : Registry}

theorem empty : Registry.Consistent fold ⟨∅, ∅⟩ := by
  constructor <;> simp

theorem indexed (inv : r.Consistent fold) {folded : String} {user : RemoteUser}
    (found : r.remoteUsers.lookup folded = some user) :
    r.remoteByUid.lookup user.uid = some folded :=
  (inv.inverse _ _).mpr ⟨user, found, rfl⟩

/-- No UID is filed under two nicks. -/
theorem unique (inv : r.Consistent fold) {folded other : String} {u v : RemoteUser}
    (found : r.remoteUsers.lookup folded = some u)
    (otherFound : r.remoteUsers.lookup other = some v) (sameUid : u.uid = v.uid) :
    folded = other := by
  have here := inv.indexed found
  rw [sameUid, inv.indexed otherFound] at here
  exact (Option.some.inj here).symm

/-- No two UIDs are indexed at one nick. -/
theorem index_apart (inv : r.Consistent fold) {uid other folded otherFolded : String}
    (index : r.remoteByUid.lookup uid = some folded)
    (otherIndex : r.remoteByUid.lookup other = some otherFolded) (different : other ≠ uid) :
    otherFolded ≠ folded := by
  intro here
  obtain ⟨user, found, own⟩ := (inv.inverse uid folded).mp index
  obtain ⟨otherUser, otherFound, otherOwn⟩ := (inv.inverse other otherFolded).mp otherIndex
  rw [here, found] at otherFound
  cases otherFound
  exact different (otherOwn.symm.trans own)

/-- Inserting a user makes the registry consistent if it was for all other UIDs and holds
this one nowhere else. -/
theorem of_insert {folded : String} {user : RemoteUser} (at_nick : folded = fold user.nick)
    (filed : ∀ folded user, r.remoteUsers.lookup folded = some user → folded = fold user.nick)
    (others : ∀ uid, uid ≠ user.uid → ∀ folded, r.remoteByUid.lookup uid = some folded ↔
      ∃ other, r.remoteUsers.lookup folded = some other ∧ other.uid = uid)
    (nowhereElse : ∀ place other, r.remoteUsers.lookup place = some other → other.uid = user.uid →
      place = folded) :
    (r.remoteInsert folded user).Consistent fold := by
  constructor
  case filed =>
    intro place other found
    rw [lookup_users_insert] at found
    split at found
    · rename_i same
      cases found
      rw [same, at_nick]
    · exact filed _ _ found
  intro uid place
  rw [lookup_users_insert]
  by_cases own : uid = user.uid
  · rw [own, lookup_index_own, Option.some.injEq]
    constructor
    · intro same
      exact ⟨user, by rw [if_pos same.symm], rfl⟩
    · intro ⟨other, found, sameUid⟩
      split at found
      · rename_i same
        exact same.symm
      · exact (nowhereElse _ _ found sameUid).symm
  rw [lookup_index_insert r folded own]
  -- the index of the user who had the nick goes with it
  by_cases here : place = folded
  · have notHere : ¬ ∃ other, (if place = folded then some user else r.remoteUsers.lookup place) =
        some other ∧ other.uid = uid := by
      intro ⟨other, found, sameUid⟩
      rw [if_pos here] at found
      cases found
      exact own sameUid.symm
    refine iff_of_false ?_ notHere
    intro found
    split at found
    · cases found
    · rename_i notReplaced
      obtain ⟨prev, held, sameUid⟩ := (others uid own place).mp found
      rw [here] at held
      simp [held, sameUid] at notReplaced
  · rw [if_neg here]
    by_cases replaced : (r.remoteUsers.lookup folded).any (fun prev => prev.uid = uid) = true
    · rw [if_pos replaced]
      refine iff_of_false (by simp) fun elsewhere => ?_
      obtain ⟨prev, held, sameUid⟩ := (Option.any_eq_true _ _).mp replaced
      have atFolded := (others uid own folded).mpr ⟨prev, held, by simpa using sameUid⟩
      rw [(others uid own place).mpr elsewhere] at atFolded
      exact here (Option.some.inj atFolded)
    · rw [if_neg replaced]
      exact others uid own place

/-- An introduction keeps the registry consistent unless its UID is filed elsewhere. -/
theorem remoteInsert (inv : r.Consistent fold) {user : RemoteUser}
    (notElsewhere : ∀ folded, r.remoteByUid.lookup user.uid = some folded → folded = fold user.nick) :
    (r.remoteInsert (fold user.nick) user).Consistent fold := by
  refine of_insert rfl inv.filed (fun uid _ folded => inv.inverse uid folded) ?_
  intro place other found same
  have index := inv.indexed found
  rw [same] at index
  exact notElsewhere place index

/-- A nick change keeps the registry consistent. -/
theorem rename (inv : r.Consistent fold) {old : RemoteUser} (newNick : String)
    (found : r.remoteUsers.lookup (fold old.nick) = some old) :
    ((⟨r.remoteUsers.erase (fold old.nick), r.remoteByUid⟩ : Registry).remoteInsert (fold newNick)
      { old with nick := newNick }).Consistent fold := by
  have erased : ∀ place other, (r.remoteUsers.erase (fold old.nick)).lookup place = some other →
      r.remoteUsers.lookup place = some other ∧ place ≠ fold old.nick := by
    intro place other stored
    rw [Table.lookup_erase_if] at stored
    split at stored
    · cases stored
    · rename_i different
      exact ⟨stored, different⟩
  refine of_insert rfl (fun place other stored => inv.filed _ _ (erased _ _ stored).1) ?_ ?_
  · intro uid different place
    rw [inv.inverse]
    constructor
    · intro ⟨other, stored, same⟩
      refine ⟨other, ?_, same⟩
      have elsewhere : ¬ place = fold old.nick := by
        intro here
        rw [here, found] at stored
        cases stored
        exact different same.symm
      show (r.remoteUsers.erase (fold old.nick)).lookup place = some other
      rw [Table.lookup_erase_if, if_neg elsewhere, stored]
    · intro ⟨other, stored, same⟩
      exact ⟨other, (erased _ _ stored).1, same⟩
  · intro place other stored same
    -- the user's only entry was the one just erased
    obtain ⟨kept, elsewhere⟩ := erased _ _ stored
    exact absurd (inv.unique kept found same) elsewhere

/-- Removing a user by UID keeps the registry consistent. -/
theorem remoteRemoveByUid (inv : r.Consistent fold) (uid : String) :
    (r.remoteRemoveByUid uid).Consistent fold := by
  rw [Registry.remoteRemoveByUid]
  cases index : r.remoteByUid.lookup uid with
  | none => exact inv
  | some folded =>
    obtain ⟨user, found, same⟩ := (inv.inverse _ _).mp index
    constructor
    case filed =>
      intro place other stored
      rw [Table.lookup_erase_if] at stored
      split at stored
      · cases stored
      · exact inv.filed _ _ stored
    intro other place
    simp only [Table.lookup_erase_if]
    by_cases own : other = uid
    · rw [if_pos own]
      refine iff_of_false (by simp) fun ⟨otherUser, stored, sameUid⟩ => ?_
      split at stored
      · cases stored
      · rename_i elsewhere
        exact elsewhere (inv.unique stored found (by rw [sameUid, own, same]))
    · rw [if_neg own, inv.inverse]
      -- only the user with this UID was at its place
      by_cases here : place = folded
      · rw [if_pos here]
        refine iff_of_false (fun ⟨otherUser, stored, sameUid⟩ => ?_) (by simp)
        rw [here, found] at stored
        cases stored
        exact own (sameUid.symm.trans same)
      · rw [if_neg here]

/-- Changing a user's own data in place keeps the registry consistent. -/
theorem update (inv : r.Consistent fold) {uid : String} {change : RemoteUser → RemoteUser}
    (keepsKeys : ∀ user, (change user).uid = user.uid ∧ (change user).nick = user.nick) :
    (r.update uid change).Consistent fold := by
  rw [Registry.update]
  cases r.remoteByUid.lookup uid with
  | none => exact inv
  | some place =>
    constructor
    case filed =>
      intro folded user stored
      have modified : (r.remoteUsers.modify place change).lookup folded = some user := stored
      rw [Table.lookup_modify] at modified
      split at modified
      · obtain ⟨before, found, rfl⟩ := Option.map_eq_some_iff.mp modified
        rw [(keepsKeys before).2]
        exact inv.filed _ _ found
      · exact inv.filed _ _ modified
    intro other folded
    show r.remoteByUid.lookup other = some folded ↔
      ∃ user, (r.remoteUsers.modify place change).lookup folded = some user ∧ user.uid = other
    -- UID and nick stay, so both indexes do
    rw [inv.inverse, Table.lookup_modify]
    split
    · rename_i here
      constructor
      · rintro ⟨user, found, own⟩
        refine ⟨change user, ?_, by rw [(keepsKeys user).1, own]⟩
        rw [found, Option.map_some]
      · rintro ⟨user, found, own⟩
        obtain ⟨before, stored, rfl⟩ := Option.map_eq_some_iff.mp found
        exact ⟨before, stored, by rw [← (keepsKeys before).1, own]⟩
    · exact Iff.rfl

end Registry.Consistent

/-! ## What each operation keeps -/

/-- The registry of this server is consistent under its own case mapping. -/
def Tables.RegistryConsistent (t : Tables) : Prop :=
  t.toRegistry.Consistent t.info.casemapping.fold

namespace Tables.RegistryConsistent

theorem of_same {t t' : Tables} (inv : t.RegistryConsistent) (registry : t'.toRegistry = t.toRegistry)
    (info : t'.info = t.info) : t'.RegistryConsistent := by
  rw [RegistryConsistent, registry, info]
  exact inv

theorem known {t : Tables} (inv : t.RegistryConsistent) {uid : String} {user : RemoteUser}
    (found : t.remoteUserByUid uid = some user) :
    user.uid = uid ∧ t.remoteUsers.lookup (t.fold user.nick) = some user := by
  obtain ⟨folded, index, stored⟩ := Option.bind_eq_some_iff.mp found
  obtain ⟨other, otherStored, same⟩ := (inv.inverse _ _).mp index
  rw [stored] at otherStored
  cases otherStored
  have filed := inv.filed _ _ stored
  exact ⟨same, by rw [filed] at stored; exact stored⟩

theorem departed {t : Tables} (inv : t.RegistryConsistent) (uid : String) :
    (t.departed uid).RegistryConsistent :=
  Registry.Consistent.remoteRemoveByUid inv uid

theorem departedAll {t : Tables} (inv : t.RegistryConsistent) (uids : List String) :
    (t.departedAll uids).RegistryConsistent :=
  foldl_invariant (I := RegistryConsistent) Tables.departed uids
    (fun _ uid _ holds => holds.departed uid) t inv

theorem vacate_same (t : Tables) (folded : String) :
    (t.vacate folded).toRegistry = t.toRegistry ∧ (t.vacate folded).info = t.info := by
  rw [vacate]
  split
  · exact ⟨rfl, rfl⟩
  · split <;> exact ⟨rfl, rfl⟩

theorem vacate_fold (t : Tables) (folded : String) : (t.vacate folded).fold = t.fold := by
  funext name
  rw [fold, (vacate_same t folded).2]
  rfl

theorem renamed {t : Tables} (inv : t.RegistryConsistent) {uid : String} {old : RemoteUser}
    (newNick : String) (found : t.remoteUserByUid uid = some old) :
    (t.renamed uid newNick old).RegistryConsistent :=
  Registry.Consistent.rename inv newNick (inv.known found).2

end Tables.RegistryConsistent

/-- If this introduction wins its nick, its UID is filed under no other nick. -/
def Tables.KeepsUidNick (t : Tables) (user : RemoteUser) : Prop :=
  t.outranks (t.fold user.nick) user.uid = true →
    ∀ folded, t.remoteByUid.lookup user.uid = some folded → folded = t.fold user.nick

namespace Server

/-- An introduction keeps a consistent registry consistent exactly if it does not give a
second nick to a known UID. -/
theorem acceptRemoteUser_consistent_iff {s : Server} (inv : s.RegistryConsistent) (user : RemoteUser) :
    (s.acceptRemoteUser user).1.RegistryConsistent ↔ s.KeepsUidNick user := by
  by_cases wins : s.outranks (s.fold user.nick) user.uid = true
  · have tables := (acceptRemoteUser_wins wins).2
    have registry : (s.acceptRemoteUser user).1.toRegistry =
        s.toRegistry.remoteInsert (s.fold user.nick) user := by rw [tables]
    have info : (s.acceptRemoteUser user).1.info = s.info := by
      rw [tables]
      exact (Tables.RegistryConsistent.vacate_same _ _).2
    rw [Tables.RegistryConsistent, registry, info]
    constructor
    · intro after _ folded index
      obtain ⟨held, stored, same⟩ := (inv.inverse _ _).mp index
      by_contra elsewhere
      -- the old entry stays in the table, while the index points to the new one
      have kept : (s.remoteInsert (s.fold user.nick) user).remoteUsers.lookup folded = some held := by
        rw [remoteInsert_toTables, Registry.lookup_users_insert, if_neg elsewhere, stored]
      have stale := after.indexed kept
      rw [same, Registry.lookup_index_own] at stale
      exact elsewhere (Option.some.inj stale).symm
    · intro keeps
      exact Registry.Consistent.remoteInsert inv (keeps wins)
  · have loses : s.outranks (s.fold user.nick) user.uid = false := by simpa using wins
    have vacuous : s.KeepsUidNick user := fun outranks => absurd outranks wins
    refine iff_of_true ?_ vacuous
    by_cases refreshes : s.refreshes (s.fold user.nick) user.uid = true
    · rw [acceptRemoteUser_refresh refreshes]
      refine Registry.Consistent.remoteInsert inv fun folded index => ?_
      rw [Tables.refreshes, Bool.and_eq_true, Option.any_eq_true] at refreshes
      obtain ⟨-, held, stored, same⟩ := refreshes
      have own := inv.indexed stored
      rw [decide_eq_true_eq.mp same, index] at own
      exact Option.some.inj own
    · rw [acceptRemoteUser_loses (by simpa using refreshes) loses]
      exact inv

theorem remoteNickChange_consistent {s : Server} (inv : s.RegistryConsistent) (uid newNick : String) :
    (s.remoteNickChange uid newNick).1.RegistryConsistent := by
  cases found : s.remoteUserByUid uid with
  | none => simpa only [remoteNickChange, found] using inv
  | some old =>
    by_cases unchanged : old.nick = newNick
    · simpa only [remoteNickChange, found, if_pos unchanged] using inv
    by_cases sameFold : s.fold newNick = s.fold old.nick
    · rw [remoteNickChange_case found unchanged sameFold, applyNickChange_toTables]
      exact inv.renamed newNick found
    by_cases wins : s.outranks (s.fold newNick) uid = true
    · rw [(remoteNickChange_wins found sameFold wins).2]
      obtain ⟨registry, info⟩ := Tables.RegistryConsistent.vacate_same s.toTables (s.fold newNick)
      refine (inv.of_same registry info).renamed newNick ?_
      rw [Tables.remoteUserByUid, registry]
      exact found
    · rw [remoteNickChange_loses found sameFold (by simpa using wins), dropLosingChanger_toTables]
      exact inv.departed uid

theorem killByUid_consistent {s : Server} (inv : s.RegistryConsistent) (uid reason : String) :
    (s.killByUid uid reason).RegistryConsistent := by
  rw [killByUid]
  cases s.localIdOfUid uid with
  | none =>
    rw [remoteQuit_toTables]
    exact inv.departed uid
  | some id =>
    show Tables.RegistryConsistent (if id ∈ s.byId then s.requestKill id reason else s).toTables
    split
    · exact inv
    · exact inv

theorem splitRemoteServer_consistent {s : Server} (inv : s.RegistryConsistent) (sid reason : String) :
    (s.splitRemoteServer sid reason).RegistryConsistent := by
  rw [splitRemoteServer_toTables, Tables.splitOff]
  refine Tables.RegistryConsistent.departedAll ?_ _
  exact inv.of_same rfl rfl

theorem dropLink_consistent {s : Server} (inv : s.RegistryConsistent) (sid : String) :
    (s.dropLink sid).RegistryConsistent := by
  rw [dropLink_toTables, Tables.linkDropped]
  refine Tables.RegistryConsistent.departedAll ?_ _
  exact inv.of_same rfl rfl

end Server

/-! ## Runs -/

/-- The calls that change the registry, and changes elsewhere between them. -/
inductive RegistryCall where
  | acceptRemoteUser (user : RemoteUser)
  | remoteNickChange (uid newNick : String)
  | remoteQuit (uid reason : String)
  | killByUid (uid reason : String)
  | splitRemoteServer (sid reason : String)
  | dropLink (sid : String)
  | elsewhere

namespace RegistryCall

def Performs (s s' : Server) : RegistryCall → Prop
  | acceptRemoteUser user => s' = (s.acceptRemoteUser user).1
  | remoteNickChange uid newNick => s' = (s.remoteNickChange uid newNick).1
  | remoteQuit uid reason => s' = s.remoteQuit uid reason
  | killByUid uid reason => s' = s.killByUid uid reason
  | splitRemoteServer sid reason => s' = s.splitRemoteServer sid reason
  | dropLink sid => s' = s.dropLink sid
  | elsewhere => s'.toRegistry = s.toRegistry ∧ s'.info = s.info

/-- A server that starts without remote users. -/
def machine : Machine Server RegistryCall where
  start s := s.toRegistry = ⟨∅, ∅⟩
  step s call s' := call.Performs s s'

/-- No winning introduction gives a second nick to a known UID. -/
def KeepsUidNicks (s : Server) (call : RegistryCall) : Prop :=
  ∀ user, call = acceptRemoteUser user → s.KeepsUidNick user

/-- Table and index are inverse in every state of every run in which no winning introduction
gives a second nick to a known UID. -/
theorem run_registryConsistent {s : Server} (run : machine.GuardedRun KeepsUidNicks s) :
    s.RegistryConsistent := by
  refine run.invariant (I := fun s => s.RegistryConsistent) ?_ ?_
  · intro state fresh
    rw [Tables.RegistryConsistent, show state.toRegistry = ⟨∅, ∅⟩ from fresh]
    exact .empty
  · intro state call next inv keeps performed
    cases call with
    | acceptRemoteUser user =>
      cases performed
      exact (Server.acceptRemoteUser_consistent_iff inv user).mpr (keeps user rfl)
    | remoteNickChange uid newNick =>
      cases performed
      exact Server.remoteNickChange_consistent inv uid newNick
    | remoteQuit uid reason =>
      cases performed
      rw [Server.remoteQuit_toTables]
      exact inv.departed uid
    | killByUid uid reason =>
      cases performed
      exact Server.killByUid_consistent inv uid reason
    | splitRemoteServer sid reason =>
      cases performed
      exact Server.splitRemoteServer_consistent inv sid reason
    | dropLink sid =>
      cases performed
      exact Server.dropLink_consistent inv sid
    | elsewhere => exact inv.of_same performed.1 performed.2

theorem alpha_start : machine.start Server.alpha := rfl

theorem run_registryConsistent_alice : (Server.alpha.acceptRemoteUser (betaUser "2BBaaa" "alice")).1.RegistryConsistent := by
  apply run_registryConsistent
  refine .step (e := acceptRemoteUser (betaUser "2BBaaa" "alice")) (.start alpha_start) ?_ rfl
  intro user same _ folded index
  cases index

/-- A UID introduced again under another nick stays in the table under the first. -/
theorem secondNick_breaks : ¬ ∀ s, machine.Reachable s → s.RegistryConsistent := by
  intro holds
  have run : machine.Reachable
      ((Server.alpha.acceptRemoteUser (betaUser "2BBaaa" "alice")).1.acceptRemoteUser (betaUser "2BBaaa" "bob")).1 := by
    refine .step (e := acceptRemoteUser (betaUser "2BBaaa" "bob"))
      (.step (e := acceptRemoteUser (betaUser "2BBaaa" "alice")) (.start alpha_start) trivial rfl) trivial rfl
  have both : "alice" = "bob" := by
    apply (holds _ run).unique (u := betaUser "2BBaaa" "alice") (v := betaUser "2BBaaa" "bob")
    · decide
    · decide
    · rfl
  exact absurd both (by decide)

end RegistryCall

end Ferrixd
