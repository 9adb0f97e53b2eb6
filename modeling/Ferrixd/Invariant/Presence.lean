import Ferrixd.Invariant.Watches
import Ferrixd.Network.Commands

/-! # What watchers are told

Clients watch folded nicks with MONITOR.  What each of them was last told of a nick is whether somebody holds it. -/

namespace Ferrixd

/-- Whether a registered client or a user on another server holds a folded nick. -/
def Tables.present (t : Tables) (folded : String) : Bool :=
  ((t.findClient folded).any fun id => (t.entry id).registered) || (t.findRemoteUser folded).isSome

/-- Whether a user on another server holds a folded nick. -/
def Tables.presentRemotely (t : Tables) (folded : String) : Bool :=
  (t.findRemoteUser folded).isSome

/-- Nobody here has a nick that somebody has elsewhere. -/
def Tables.Apart (t : Tables) : Prop :=
  ∀ folded, t.presentRemotely folded = true → t.findClient folded = none

/-- Users on other servers are filed under their nicks. -/
def Tables.Filed (t : Tables) : Prop :=
  ∀ folded user, t.remoteUsers.lookup folded = some user → t.fold user.nick = folded

/-- Whom a word about a nick reaches. -/
def Tables.audience (t : Tables) (folded : String) : List UInt64 :=
  (watchers t.monitors folded).filter fun id => id ∈ t.byId

/-- What the watchers are told, one change after the other. -/
def Tables.words (t : Tables) (changes : List (String × Bool)) : List PresenceNotice :=
  changes.flatMap fun change => announce (t.audience change.1) change.1 change.2

namespace Server

theorem notifyMonitors_notices (s : Server) (folded : String) (code : Nat) (payload : String) :
    (s.notifyMonitors folded code payload).fx.notices =
      s.fx.notices ++ announce (s.audience folded) folded (decide (code = rplMonOnline)) := by
  have told (ids : List UInt64) (s : Server) :
      (ids.foldl (fun s id => s.sendPresence id code [folded] payload) s).fx.notices =
        s.fx.notices ++ announce ids folded (decide (code = rplMonOnline)) := by
    induction ids generalizing s with
    | nil => exact (List.append_nil _).symm
    | cons id rest ih =>
      rw [List.foldl_cons, ih, announce, announce, List.map_cons, List.append_cons]
      rfl
  rw [notifyMonitors, Tables.audience, watchers]
  cases s.monitors.lookup folded with
  | none => exact (List.append_nil _).symm
  | some ids => exact told _ s

theorem monitorOnline_notices (s : Server) (nick mask : String) :
    (s.monitorOnline nick mask).fx.notices = s.fx.notices ++ s.words [(s.fold nick, true)] := by
  rw [monitorOnline, notifyMonitors_notices]
  simp [Tables.words]

theorem monitorOffline_notices (s : Server) (nick : String) :
    (s.monitorOffline nick).fx.notices = s.fx.notices ++ s.words [(s.fold nick, false)] := by
  rw [monitorOffline, notifyMonitors_notices]
  simp [Tables.words, rplMonOffline, rplMonOnline]

end Server

/-! ## Changes elsewhere -/

/-- Changes to who is present on other servers, of which the watchers are told. -/
structure Shift (s s' : Server) (changes : List (String × Bool)) : Prop where
  info : s'.info = s.info
  clients : s'.clients = s.clients
  byId : s'.byId = s.byId
  monitors : s'.monitors = s.monitors
  entries : ∀ id, (s'.entry id).registered = (s.entry id).registered ∧ (s'.entry id).monitor = (s.entry id).monitor
  users : s'.presentRemotely = revised s.presentRemotely changes
  filed : s.Filed → s'.Filed
  free : s.Apart → ∀ change ∈ changes, s.findClient change.1 = none
  notices : s'.fx.notices = s.fx.notices ++ s.words changes

namespace Shift

variable {s s' : Server} {changes : List (String × Bool)}

theorem fold (shift : Shift s s' changes) : s'.fold = s.fold := by
  funext name
  rw [Tables.fold, Tables.fold, shift.info]

theorem audience (shift : Shift s s' changes) (folded : String) : s'.audience folded = s.audience folded := by
  rw [Tables.audience, Tables.audience, shift.monitors, shift.byId]

theorem words (shift : Shift s s' changes) (more : List (String × Bool)) : s'.words more = s.words more := by
  simp only [Tables.words, shift.audience]

theorem apart (shift : Shift s s' changes) (apart : s.Apart) : s'.Apart := by
  intro folded remote
  rw [Tables.findClient, shift.clients, ← Tables.findClient]
  by_cases touched : ∃ change ∈ changes, change.1 = folded
  · obtain ⟨change, member, rfl⟩ := touched
    exact shift.free apart change member
  · have untouched : ∀ change ∈ changes, change.1 ≠ folded := fun change member same => touched ⟨change, member, same⟩
    rw [shift.users, revised_of_notMem untouched] at remote
    exact apart folded remote

/-- Nobody notices a change that is about other things. -/
theorem quiet (info : s'.info = s.info) (registry : s'.toRegistry = s.toRegistry)
    (clients : SameClients s.toTables s'.toTables) (unnoticed : Unnoticed s s') : Shift s s' [] := by
  have remoteUsers : s'.remoteUsers = s.remoteUsers := by rw [registry]
  constructor
  case info => exact info
  case clients => exact clients.clients
  case byId => exact clients.indexed
  case monitors => exact unnoticed.monitors
  case entries =>
    intro id
    have identity := clients.identity id
    simp only [ClientEntry.identity, ClientEntry.mk.injEq] at identity
    tauto
  case users =>
    funext folded
    rw [Tables.presentRemotely, Tables.findRemoteUser, remoteUsers]
    rfl
  case filed =>
    intro filed folded user found
    rw [remoteUsers] at found
    rw [Tables.fold, info]
    exact filed folded user found
  case free => exact fun _ change member => absurd member List.not_mem_nil
  case notices => rw [unnoticed.notices, Tables.words, List.flatMap_nil, List.append_nil]

theorem refl (s : Server) : Shift s s [] :=
  quiet rfl rfl (.of_locals rfl) (.refl s)

theorem rooms (rooms : RoomsOnly s.toTables s'.toTables) (unnoticed : Unnoticed s s') : Shift s s' [] :=
  quiet rooms.info rooms.registry rooms.clients unnoticed

theorem queued (tables : s'.toTables = s.toTables) (notices : s'.fx.notices = s.fx.notices) : Shift s s' [] :=
  rooms (.of_eq tables) (.of_tables tables notices)

theorem trans {first second third : Server} {more : List (String × Bool)} (left : Shift first second changes)
    (right : Shift second third more) : Shift first third (changes ++ more) := by
  constructor
  case info => exact right.info.trans left.info
  case clients => exact right.clients.trans left.clients
  case byId => exact right.byId.trans left.byId
  case monitors => exact right.monitors.trans left.monitors
  case entries =>
    exact fun id => ⟨(right.entries id).1.trans (left.entries id).1, (right.entries id).2.trans (left.entries id).2⟩
  case users => rw [right.users, left.users, revised_append]
  case filed => exact fun filed => right.filed (left.filed filed)
  case free =>
    intro apart change member
    rcases List.mem_append.mp member with before | after
    · exact left.free apart change before
    · have later := right.free (left.apart apart) change after
      rwa [Tables.findClient, left.clients] at later
  case notices =>
    rw [right.notices, left.notices, left.words, Tables.words, Tables.words, Tables.words, List.flatMap_append,
      List.append_assoc]

theorem append_quiet {later : Server} (shift : Shift s s' changes) (quiet : Shift s' later []) :
    Shift s later changes := by
  have both := shift.trans quiet
  rwa [List.append_nil] at both

end Shift

/-! ## Remote users -/

theorem beforeChar_hostmask {nick : String} (plain : '!' ∉ nick.toList) (user host : String) :
    beforeChar (hostmask nick user host) '!' = nick := by
  have stops : (hostmask nick user host).toList.takeWhile (fun other => other != '!') = nick.toList := by
    simp only [hostmask, String.toList_append, List.append_assoc]
    rw [List.takeWhile_append_of_pos]
    · simp
    · intro c member
      exact bne_iff_ne.mpr fun same => plain (same ▸ member)
  rw [beforeChar, stops, String.ofList_toList]

namespace Shift

variable {s s' : Server} {changes : List (String × Bool)}

/-- The users on other servers change, and the watchers are told. -/
theorem of_users (info : s'.info = s.info) (locals : s'.toLocals = s.toLocals)
    (users : s'.presentRemotely = revised s.presentRemotely changes) (filed : s.Filed → s'.Filed)
    (free : s.Apart → ∀ change ∈ changes, s.findClient change.1 = none)
    (notices : s'.fx.notices = s.fx.notices ++ s.words changes) : Shift s s' changes := by
  have entries : s'.entries = s.entries := by rw [locals]
  constructor
  case info => exact info
  case clients => rw [locals]
  case byId => rw [locals]
  case monitors => rw [locals]
  case entries =>
    intro id
    rw [Tables.entry, Tables.entry, entries]
    exact ⟨rfl, rfl⟩
  case users => exact users
  case filed => exact filed
  case free => exact free
  case notices => exact notices

theorem words_of_locals (locals : s'.toLocals = s.toLocals) : s'.words changes = s.words changes := by
  simp only [Tables.words, Tables.audience, locals]

theorem presentRemotely_insert (s : Server) (folded : String) (user : RemoteUser) :
    (s.remoteInsert folded user).presentRemotely = Function.update s.presentRemotely folded true := by
  funext place
  rw [Tables.presentRemotely, Tables.findRemoteUser, Server.remoteInsert_toTables, Registry.lookup_users_insert,
    Function.update_apply]
  split <;> rfl

theorem filed_insert (s : Server) (user : RemoteUser) (filed : s.Filed) :
    (s.remoteInsert (s.fold user.nick) user).Filed := by
  intro folded other found
  rw [Server.remoteInsert_toTables, Registry.lookup_users_insert] at found
  split at found
  · rename_i here
    cases found
    exact here.symm
  · exact filed folded other found

/-- A user arrives under a nick that no client has. -/
theorem arrived (s : Server) {user : RemoteUser} (plain : '!' ∉ user.nick.toList)
    (free : s.findClient (s.fold user.nick) = none) :
    Shift s ((s.remoteInsert (s.fold user.nick) user).monitorOnlineMask user.hostmask) [(s.fold user.nick, true)] := by
  have masked : beforeChar user.hostmask '!' = user.nick := beforeChar_hostmask plain _ _
  refine .of_users ?_ ?_ ?_ ?_ ?_ ?_
  · rw [Server.monitorOnlineMask_toTables]
    rfl
  · rw [Server.monitorOnlineMask_toTables]
    rfl
  · rw [Server.monitorOnlineMask_toTables]
    exact presentRemotely_insert s _ user
  · intro filed
    rw [Server.monitorOnlineMask_toTables]
    exact filed_insert s user filed
  · intro _ change member
    rw [List.mem_singleton.mp member]
    exact free
  · rw [Server.monitorOnlineMask, Server.monitorOnline_notices, masked]
    rfl

/-- A user that is known under its nick is introduced once more. -/
theorem refreshed (s : Server) {user existing : RemoteUser}
    (known : s.remoteUsers.lookup (s.fold user.nick) = some existing) :
    Shift s (s.remoteInsert (s.fold user.nick) user) [] := by
  refine .of_users rfl rfl ?_ (filed_insert s user) (fun _ change member => absurd member List.not_mem_nil) (List.append_nil _).symm
  have present : s.presentRemotely (s.fold user.nick) = true := by
    rw [Tables.presentRemotely, Tables.findRemoteUser, known]
    rfl
  rw [presentRemotely_insert, ← present, Function.update_eq_self]
  rfl

theorem purged (s : Server) (uid reason : String) : Shift s (s.purgeRemoteMemberships uid reason) [] := by
  refine .quiet ?_ ?_ (.of_locals ?_) (Silent.purgeRemoteMemberships s uid reason).unnoticed <;>
    · rw [Server.purgeRemoteMemberships_purged]
      rfl

theorem towards (s : Server) (sid : String) (message : LinkMessage) : Shift s (s.sendTowards sid message) [] :=
  .queued (Server.sendTowards_toTables _ _ _) (Server.sendTowards_notices s sid message)

theorem killed (s : Server) (id : UInt64) (reason : String) : Shift s (s.requestKill id reason) [] :=
  .quiet rfl rfl (.killed _ _ _) ⟨rfl, rfl⟩

/-- An introduction that takes no nick from a client. -/
theorem acceptRemoteUser (s : Server) {user : RemoteUser} (plain : '!' ∉ user.nick.toList)
    (spares : ∀ id, s.findClient (s.fold user.nick) = some id → ¬ user.uid < s.localUid id) :
    ∃ changes, Shift s (s.acceptRemoteUser user).1 changes := by
  rw [Server.acceptRemoteUser]
  cases holder : s.findClient (s.fold user.nick) with
  | some id =>
    dsimp only
    rw [if_neg (spares id holder)]
    exact ⟨[], .refl s⟩
  | none =>
    dsimp only
    cases known : s.remoteUsers.lookup (s.fold user.nick) with
    | none => exact ⟨_, arrived s plain holder⟩
    | some existing =>
      dsimp only
      split
      · exact ⟨[], refreshed s known⟩
      · split
        · -- the other user with the nick goes without a word, and the watchers are told of the new one
          have vacated : Shift s ((s.sendTowards existing.serverSid (killFor existing.uid)).purgeRemoteMemberships
              existing.uid "Nick collision") [] :=
            (towards s _ _).trans (purged _ _ _)
          have free : ((s.sendTowards existing.serverSid (killFor existing.uid)).purgeRemoteMemberships existing.uid
              "Nick collision").findClient (s.fold user.nick) = none := by
            rwa [Tables.findClient, vacated.clients]
          have fold := congrFun vacated.fold user.nick
          have new := arrived _ plain (fold ▸ free)
          rw [fold] at new
          exact ⟨_, vacated.trans new⟩
        · exact ⟨[], .refl s⟩

theorem recordWhowas (s : Server) (nick user host realname : String) :
    Shift s (s.recordWhowas nick user host realname) [] := by
  refine .queued (Server.recordWhowas_toTables _ _ _ _ _) ?_
  rw [Server.recordWhowas]
  split <;> rfl

theorem monitorOffline_of_gone {later : Server} {nick : String} (info : later.info = s.info)
    (locals : later.toLocals = s.toLocals)
    (users : later.presentRemotely = revised s.presentRemotely [(s.fold nick, false)]) (filed : s.Filed → later.Filed)
    (known : s.presentRemotely (s.fold nick) = true) (notices : later.fx.notices = s.fx.notices) :
    Shift s (later.monitorOffline nick) [(s.fold nick, false)] := by
  have fold : later.fold nick = s.fold nick := by rw [Tables.fold, Tables.fold, info]
  refine .of_users ?_ ?_ ?_ ?_ ?_ ?_
  · rw [Server.monitorOffline_toTables, info]
  · rw [Server.monitorOffline_toTables, locals]
  · rw [Server.monitorOffline_toTables, users]
  · rw [Server.monitorOffline_toTables]
    exact filed
  · intro apart change member
    rw [List.mem_singleton.mp member]
    exact apart _ known
  · rw [Server.monitorOffline_notices, notices, fold, words_of_locals locals]

/-- Removing whom the index does not lead to changes no user. -/
theorem lookup_remove_unknown {s : Server} {uid : String} (unknown : s.remoteUserByUid uid = none) (folded : String) :
    (s.remoteRemoveByUid uid).remoteUsers.lookup folded = s.remoteUsers.lookup folded := by
  rw [Server.remoteRemoveByUid_toTables, Registry.remoteRemoveByUid]
  cases index : s.remoteByUid.lookup uid with
  | none => rfl
  | some place =>
    rw [Tables.remoteUserByUid, index, Option.bind_some] at unknown
    show (s.remoteUsers.erase place).lookup folded = _
    rw [Table.lookup_erase_if]
    split
    · rename_i here
      rw [here, unknown]
    · rfl

theorem lookup_remove_known {s : Server} {uid : String} {user : RemoteUser} (filed : s.Filed)
    (known : s.remoteUserByUid uid = some user) (folded : String) :
    (s.remoteRemoveByUid uid).remoteUsers.lookup folded =
      if folded = s.fold user.nick then none else s.remoteUsers.lookup folded := by
  obtain ⟨place, index, stored⟩ := Option.bind_eq_some_iff.mp known
  rw [Server.remoteRemoveByUid_toTables, Registry.remoteRemoveByUid, index, filed place user stored]
  exact Table.lookup_erase_if _ _ _

/-- A user leaves the network. -/
theorem remoteQuit (s : Server) (uid reason : String) (filed : s.Filed) :
    ∃ changes, Shift s (s.remoteQuit uid reason) changes := by
  have gone := purged s uid reason
  have registry : (s.purgeRemoteMemberships uid reason).toRegistry = s.toRegistry := by
    rw [Server.purgeRemoteMemberships_purged]
    rfl
  have info : (s.purgeRemoteMemberships uid reason).info = s.info := gone.info
  have locals : (s.purgeRemoteMemberships uid reason).toLocals = s.toLocals := by
    rw [Server.purgeRemoteMemberships_purged]
    rfl
  have known : (s.purgeRemoteMemberships uid reason).remoteUserByUid uid = s.remoteUserByUid uid := by
    rw [Tables.remoteUserByUid, Tables.remoteUserByUid, registry]
  rw [Server.remoteQuit]
  generalize s.purgeRemoteMemberships uid reason = left at gone registry info locals known ⊢
  cases departed : s.remoteUserByUid uid with
  | none =>
    rw [departed] at known
    have same := lookup_remove_unknown known
    refine ⟨[], gone.trans (.of_users rfl rfl ?_ ?_ (fun _ change member => absurd member List.not_mem_nil) (List.append_nil _).symm)⟩
    · funext folded
      rw [Tables.presentRemotely, Tables.findRemoteUser, same]
      rfl
    · intro filed folded user found
      rw [same] at found
      exact filed folded user found
  | some user =>
    rw [departed] at known
    have filedLeft := gone.filed filed
    have removed := lookup_remove_known filedLeft known
    have whowas := recordWhowas (left.remoteRemoveByUid uid) user.nick user.user user.host user.realname
    have tables := Server.recordWhowas_toTables (left.remoteRemoveByUid uid) user.nick user.user user.host user.realname
    refine ⟨_, gone.trans (monitorOffline_of_gone ?_ ?_ ?_ ?_ ?_ ?_)⟩
    · rw [tables]
      rfl
    · rw [tables]
      rfl
    · funext folded
      rw [Tables.presentRemotely, Tables.findRemoteUser, tables, removed, revised, List.foldl_cons, List.foldl_nil,
        Function.update_apply]
      split <;> rfl
    · intro _ folded other found
      rw [tables, removed] at found
      split at found
      · cases found
      · rw [tables]
        exact filedLeft folded other found
    · obtain ⟨place, -, stored⟩ := Option.bind_eq_some_iff.mp known
      rw [Tables.presentRemotely, Tables.findRemoteUser, filedLeft place user stored, stored]
      rfl
    · have notices := whowas.notices
      rw [Tables.words, List.flatMap_nil, List.append_nil] at notices
      exact notices

theorem renameMemberships (uid newNick : String) (old : RemoteUser) (names : List String) (state : Server × List UInt64) :
    Unnoticed state.1 (names.foldl (Server.renameMembership uid newNick old) state).1 := by
  refine foldl_invariant (I := fun later : Server × List UInt64 => Unnoticed state.1 later.1) _ _ ?_ state (.refl _)
  rintro ⟨later, notified⟩ folded - before
  refine before.trans ?_
  simp only [Server.renameMembership]
  split
  · exact .refl _
  · split
    · exact ⟨rfl, rfl⟩
    · exact .refl _

/-- A user changes its nick, which no client has. -/
theorem applyNickChange (s : Server) (uid newNick : String) (old : RemoteUser)
    (known : s.presentRemotely (s.fold old.nick) = true) (free : s.Apart → s.findClient (s.fold newNick) = none) :
    Shift s (s.applyNickChange uid newNick old) [(s.fold old.nick, false), (s.fold newNick, true)] := by
  have tables := Server.applyNickChange_toTables s uid newNick old
  have lookup (folded : String) : (s.applyNickChange uid newNick old).remoteUsers.lookup folded =
      if folded = s.fold newNick then some { old with nick := newNick }
      else if folded = s.fold old.nick then none else s.remoteUsers.lookup folded := by
    rw [tables, Tables.renamed, Registry.lookup_users_insert, Table.lookup_erase_if]
  refine .of_users (by rw [tables]; rfl) (by rw [tables]; rfl) ?_ ?_ ?_ ?_
  · funext folded
    rw [Tables.presentRemotely, Tables.findRemoteUser, lookup, revised, List.foldl_cons, List.foldl_cons,
      List.foldl_nil, Function.update_apply, Function.update_apply]
    split
    · rfl
    · split <;> rfl
  · intro filed folded user found
    rw [lookup] at found
    rw [tables]
    split at found
    · rename_i isNew
      cases found
      exact isNew.symm
    · split at found
      · cases found
      · exact filed folded user found
  · intro apart change member
    rcases List.mem_cons.mp member with rfl | isNew
    · exact apart _ known
    · rw [List.mem_singleton.mp isNew]
      exact free apart
  · -- the channels and the registry are changed before anybody is told
    rw [Server.applyNickChange, Server.monitorOnline_toTables, Server.monitorOffline_toTables] at tables
    rw [Server.applyNickChange, Server.monitorOnline_notices, Server.monitorOffline_notices,
      Server.monitorOffline_toTables]
    generalize isRenamed : (List.foldl (Server.renameMembership uid newNick old) _ _).1 = renamed at tables ⊢
    have members : Unnoticed s renamed := by
      rw [← isRenamed]
      exact (renameMemberships uid newNick old _ _).after ⟨rfl, rfl⟩
    have whowas := (recordWhowas renamed old.nick old.user old.host old.realname).notices
    rw [Tables.words, List.flatMap_nil, List.append_nil] at whowas
    rw [whowas, members.notices, tables, List.append_assoc]
    simp only [Tables.words, List.flatMap_cons, List.flatMap_nil, List.append_nil]
    rfl

/-- A change of nick that does not cost the user its presence. -/
theorem remoteNickChange (s : Server) (uid newNick : String) (filed : s.Filed)
    (prevails : ∀ old, s.remoteUserByUid uid = some old → s.fold newNick = s.fold old.nick ∨
      (s.findClient (s.fold newNick) = none ∧
        ∀ holder, s.remoteUsers.lookup (s.fold newNick) = some holder → uid < holder.uid)) :
    ∃ changes, Shift s (s.remoteNickChange uid newNick).1 changes := by
  rw [Server.remoteNickChange]
  cases known : s.remoteUserByUid uid with
  | none => exact ⟨[], .refl s⟩
  | some old =>
    have present : s.presentRemotely (s.fold old.nick) = true := by
      obtain ⟨place, -, stored⟩ := Option.bind_eq_some_iff.mp known
      rw [Tables.presentRemotely, Tables.findRemoteUser, filed place old stored, stored]
      rfl
    dsimp only
    split
    · exact ⟨[], .refl s⟩
    split
    · rename_i sameFold
      exact ⟨_, applyNickChange s uid newNick old present fun apart => sameFold ▸ apart _ present⟩
    · rename_i apart
      obtain ⟨noClient, lower⟩ := (prevails old known).resolve_left apart
      rw [noClient]
      dsimp only
      cases held : s.remoteUsers.lookup (s.fold newNick) with
      | none => exact ⟨_, applyNickChange s uid newNick old present fun _ => noClient⟩
      | some holder =>
        dsimp only
        rw [if_pos (lower holder held)]
        -- the other user with the nick goes without a word
        have vacated : Shift s (({ (s.sendTowards holder.serverSid (killFor holder.uid)).purgeRemoteMemberships
            holder.uid "Nick collision" with
            remoteByUid := ((s.sendTowards holder.serverSid (killFor holder.uid)).purgeRemoteMemberships
              holder.uid "Nick collision").remoteByUid.erase holder.uid } : Server)) [] :=
          ((towards s _ _).trans (purged _ _ _)).trans
            (.of_users rfl rfl rfl id (fun _ change member => absurd member List.not_mem_nil) (List.append_nil _).symm)
        generalize (({ (s.sendTowards holder.serverSid (killFor holder.uid)).purgeRemoteMemberships
            holder.uid "Nick collision" with
            remoteByUid := ((s.sendTowards holder.serverSid (killFor holder.uid)).purgeRemoteMemberships
              holder.uid "Nick collision").remoteByUid.erase holder.uid } : Server)) = left at vacated ⊢
        refine ⟨_, vacated.trans (applyNickChange left uid newNick old ?_ fun _ => ?_)⟩
        · rw [vacated.users, vacated.fold]
          exact present
        · rw [Tables.findClient, vacated.clients, vacated.fold]
          exact noClient

theorem killByUid (s : Server) (uid reason : String) (filed : s.Filed) :
    ∃ changes, Shift s (s.killByUid uid reason) changes := by
  rw [Server.killByUid]
  split
  · split
    · exact ⟨[], killed s _ _⟩
    · exact ⟨[], .refl s⟩
  · exact remoteQuit s uid reason filed

theorem quitAll (s : Server) (uids : List String) (reason : String) (filed : s.Filed) :
    ∃ changes, Shift s (s.quitAll uids reason) changes := by
  refine foldl_invariant (I := fun later : Server => ∃ changes, Shift s later changes) _ _ ?_ s ⟨[], .refl s⟩
  rintro later uid - ⟨changes, shift⟩
  obtain ⟨more, left⟩ := remoteQuit later uid reason (shift.filed filed)
  exact ⟨_, shift.trans left⟩

/-- Only the topology changes. -/
theorem routes {later : Server} (tables : later.toTables = { s.toTables with toTopology := later.toTopology })
    (notices : later.fx.notices = s.fx.notices) : Shift s later [] := by
  refine .of_users ?_ ?_ ?_ ?_ (fun _ change member => absurd member List.not_mem_nil) ?_
  · rw [tables]
  · rw [tables]
  · rw [tables]
    rfl
  · rw [tables]
    exact id
  · rw [notices]
    exact (List.append_nil _).symm

theorem announced {later : Server} (shift : ∃ changes, Shift s later changes) (message : LinkMessage) :
    ∃ changes, Shift s (later.propagateToLinks message) changes := by
  obtain ⟨changes, shift⟩ := shift
  exact ⟨changes, shift.append_quiet (.queued rfl rfl)⟩

/-- Users leave after the routes to them are gone. -/
theorem quitBehind {routed : Server} (without : Shift s routed []) (uids : List String) (reason : String)
    (filed : s.Filed) : ∃ changes, Shift s (routed.quitAll uids reason) changes := by
  obtain ⟨changes, left⟩ := quitAll routed uids reason (without.filed filed)
  exact ⟨_, without.trans left⟩

theorem splitRemoteServer (s : Server) (sid reason : String) (filed : s.Filed) :
    ∃ changes, Shift s (s.splitRemoteServer sid reason) changes := by
  rw [Server.splitRemoteServer]
  refine quitBehind ?_ _ reason filed
  exact .routes rfl rfl

theorem dropLink (s : Server) (sid : String) (filed : s.Filed) : ∃ changes, Shift s (s.dropLink sid) changes := by
  rw [Server.dropLink]
  refine announced (quitBehind ?_ _ splitReason filed) _
  exact .routes rfl rfl

theorem updateRemoteUser (s : Server) (uid : String) {change : RemoteUser → RemoteUser}
    (keepsNick : ∀ user, (change user).nick = user.nick) : Shift s (s.updateRemoteUser uid change) [] := by
  rw [Server.updateRemoteUser]
  split
  · exact .refl s
  · rename_i place _
    refine .of_users rfl rfl ?_ ?_ (fun _ change member => absurd member List.not_mem_nil) (List.append_nil _).symm
    · funext folded
      show ((s.remoteUsers.modify place change).lookup folded).isSome = (s.remoteUsers.lookup folded).isSome
      rw [Table.lookup_modify]
      split <;> simp
    · intro filed folded user found
      have stored : (s.remoteUsers.modify place change).lookup folded = some user := found
      rw [Table.lookup_modify] at stored
      split at stored
      · obtain ⟨before, known, rfl⟩ := Option.map_eq_some_iff.mp stored
        show s.fold (change before).nick = folded
        rw [keepsNick]
        exact filed folded before known
      · exact filed folded user stored

theorem changeRemoteUser (s : Server) (uid : String) {change : RemoteUser → RemoteUser}
    (keepsNick : ∀ user, (change user).nick = user.nick) (line : RemoteUser → Line) (cap : Cap) :
    Shift s (s.changeRemoteUser uid change line cap) [] := by
  rw [Server.changeRemoteUser]
  split
  · exact .refl s
  · refine (updateRemoteUser s uid keepsNick).append_quiet ?_
    rw [Server.announceToRemoteComembers]
    dsimp only
    split <;> exact .queued rfl rfl

end Shift

/-! ## Frames -/

/-- A frame takes no nick from a client, and costs no user its nick that was known before. -/
def LinkMessage.Peaceable (t : Tables) : LinkMessage → Prop
  | .uid _ who _ name _ _ _ _ => '!' ∉ name.toList ∧
      ∀ id, t.findClient (t.fold name) = some id → ¬ who < t.localUid id
  | .nick who name => ∀ old, t.remoteUserByUid who = some old → t.fold name = t.fold old.nick ∨
      (t.findClient (t.fold name) = none ∧
        ∀ holder, t.remoteUsers.lookup (t.fold name) = some holder → who < holder.uid)
  | _ => True

namespace Shift

variable {s : Server} {peerSid : String}

theorem forwarded {later : Server} {changes : List (String × Bool)} (shift : Shift s later changes)
    (message : LinkMessage) : Shift s (later.forwardToLinks peerSid message) changes :=
  shift.append_quiet (.queued rfl rfl)

theorem answered {message : LinkMessage} {result : Server × Option LinkMessage}
    (shift : ∃ changes, Shift s result.1 changes) :
    ∃ changes, Shift s (Server.answerOrForward peerSid message result).1 changes := by
  obtain ⟨later, answer⟩ := result
  obtain ⟨changes, shift⟩ := shift
  refine ⟨changes, ?_⟩
  cases answer with
  | none => exact shift.forwarded message
  | some kill => exact shift.append_quiet (.queued (Server.sendToLink_toTables _ _ _) (Server.sendToLink_notices _ _ _))

theorem applied {message : LinkMessage} (authorized : Bool) (change : Server → Server)
    (shift : ∃ changes, Shift s (change s) changes) :
    ∃ changes, Shift s (s.applyIf authorized peerSid message change).1 changes := by
  cases authorized with
  | false => exact ⟨[], .refl s⟩
  | true =>
    obtain ⟨changes, shift⟩ := shift
    exact ⟨changes, shift.forwarded message⟩

theorem routeAuthorize (s : Server) (peerSid sid : String) : Shift s (s.routeAuthorize peerSid sid).1 [] := by
  obtain ⟨refused, -⟩ | ⟨owned, -⟩ | ⟨claimed, -⟩ := Server.routeAuthorize_cases s peerSid sid
  · rw [refused]
    exact .refl s
  · rw [owned]
    exact .refl s
  · rw [claimed]
    exact .routes rfl rfl

theorem of_if {condition : Prop} [Decidable condition] {first second : Server × Flow}
    (left : ∃ changes, Shift s first.1 changes) (right : ∃ changes, Shift s second.1 changes) :
    ∃ changes, Shift s (if condition then first else second).1 changes := by
  split
  · exact left
  · exact right

/-- Whatever a peaceable frame does to the users on other servers, the watchers are told. -/
theorem handle {message : LinkMessage} (filed : s.Filed) (peaceable : message.Peaceable s.toTables)
    (others : message.neutral = false) : ∃ changes, Shift s (s.handle peerSid message).1 changes := by
  have same : ∃ changes, Shift s s changes := ⟨[], .refl s⟩
  cases message with
  | uid sid uid hops nick user host account realname =>
    obtain ⟨plain, spares⟩ := peaceable
    simp only [Server.handle]
    refine of_if same ?_
    have routed := routeAuthorize s peerSid sid
    split
    · exact same
    · rename_i authorized result
      rw [result] at routed
      refine answered ?_
      have info := routed.info
      have plainNick : '!' ∉ (Server.introduced sid uid nick user host account realname).nick.toList := plain
      obtain ⟨changes, accepted⟩ := acceptRemoteUser authorized plainNick fun id holder => by
        rw [Tables.findClient, routed.clients, routed.fold] at holder
        rw [Tables.localUid, info]
        exact spares id holder
      exact ⟨_, routed.trans accepted⟩
  | kill uid reason =>
    simp only [Server.handle]
    refine of_if (killByUid s uid reason filed) (of_if ?_ ?_)
    · obtain ⟨changes, left⟩ := killByUid s uid reason filed
      exact ⟨changes, left.forwarded _⟩
    · split
      · exact ⟨[], towards s _ _⟩
      · exact same
  | nick uid nick => exact of_if (answered (remoteNickChange s uid nick filed peaceable)) same
  | quit uid reason => exact applied _ (fun s => s.remoteQuit uid reason) (remoteQuit s uid reason filed)
  | saway uid reason =>
    have shift : Shift s (s.remoteAway uid reason) [] := by
      rw [Server.remoteAway]
      refine changeRemoteUser s uid ?_ _ _
      exact fun _ => rfl
    exact applied _ (fun s => s.remoteAway uid reason) ⟨[], shift⟩
  | saccount uid account =>
    have shift : Shift s (s.remoteAccount uid (if account = "*" then none else some account)) [] := by
      rw [Server.remoteAccount]
      refine changeRemoteUser s uid ?_ _ _
      exact fun _ => rfl
    exact applied _ (fun s => s.remoteAccount uid (if account = "*" then none else some account)) ⟨[], shift⟩
  | ssetname uid realname =>
    have shift : Shift s (s.remoteSetname uid realname) [] := by
      rw [Server.remoteSetname]
      refine changeRemoteUser s uid ?_ _ _
      exact fun _ => rfl
    exact applied _ (fun s => s.remoteSetname uid realname) ⟨[], shift⟩
  | schghost uid host =>
    have shift : Shift s (s.remoteChghost uid host) [] := by
      rw [Server.remoteChghost]
      refine changeRemoteUser s uid ?_ _ _
      exact fun _ => rfl
    exact applied _ (fun s => s.remoteChghost uid host) ⟨[], shift⟩
  | sumode uid flags =>
    have shift : Shift s (s.remoteUmode uid flags) [] := by
      rw [Server.remoteUmode]
      exact updateRemoteUser s uid fun _ => (Server.umode_keepsKeys _ _).2
    exact applied _ (fun s => s.remoteUmode uid flags) ⟨[], shift⟩
  | sserver name sid uplink description =>
    simp only [Server.handle]
    split
    · rename_i accepted
      obtain ⟨-, -, -, rfl⟩ := Server.acceptRemoteServer_ok accepted
      refine ⟨[], forwarded ((routeAuthorize s peerSid sid).append_quiet ?_) _⟩
      exact .routes rfl rfl
    · exact ⟨[], .queued (Server.sendToLink_toTables _ _ _) (Server.sendToLink_notices _ _ _)⟩
  | squit sid reason =>
    refine of_if same (of_if ?_ same)
    obtain ⟨changes, left⟩ := splitRemoteServer s sid splitReason filed
    exact ⟨changes, left.forwarded _⟩
  | ping token => exact ⟨[], .queued (Server.sendToLink_toTables _ _ _) (Server.sendToLink_notices _ _ _)⟩
  | error reason => exact same
  | pass token => exact same
  | server name sid description => exact same
  | pong token => exact same
  | _ => cases others

theorem receive {message : LinkMessage} (filed : s.Filed) (peaceable : message.Peaceable s.toTables) :
    ∃ changes, Shift s (s.receive peerSid message) changes := by
  cases kind : message.neutral with
  | true =>
    have neutral := s.receive_neutral peerSid kind
    exact ⟨[], .rooms neutral.rooms neutral.unnoticed⟩
  | false =>
    obtain ⟨changes, handled⟩ : ∃ changes, Shift s (s.handle peerSid message).1 changes := handle filed peaceable kind
    rw [Server.receive]
    split
    · rename_i result
      rw [result] at handled
      exact ⟨changes, handled⟩
    · rename_i result
      rw [result] at handled
      obtain ⟨more, left⟩ := dropLink _ peerSid (handled.filed filed)
      exact ⟨_, handled.trans left⟩

end Shift

end Ferrixd
