import Ferrixd.Invariant.Presence
import Ferrixd.Data.Split

/-! # Presence over runs

Clients come and go, take nicks and watch nicks; users of other servers do as well.  In every run every watcher was
last told the truth. -/

namespace Ferrixd

/-! ## Calls that nobody watches -/

namespace Shift

variable {s s' : Server} (id : UInt64)

/-- A client's own data changes. -/
theorem reentered {id : UInt64} {entry : ClientEntry}
    (tables : s'.toTables = { s.toTables with entries := s.entries.insert id entry })
    (registered : entry.registered = (s.entry id).registered) (monitor : entry.monitor = (s.entry id).monitor)
    (notices : s'.fx.notices = s.fx.notices) : Shift s s' [] := by
  have entries := Tables.entry_insert s.toTables s'.toTables (by rw [tables])
  have remoteUsers : s'.remoteUsers = s.remoteUsers := by rw [tables]
  have fold : s'.fold = s.fold := by rw [tables]; rfl
  constructor
  case info => rw [tables]
  case clients => rw [tables]
  case byId => rw [tables]
  case monitors => rw [tables]
  case entries =>
    intro other
    rw [entries]
    split
    · rename_i same
      exact same ▸ ⟨registered, monitor⟩
    · exact ⟨rfl, rfl⟩
  case users =>
    funext folded
    rw [Tables.presentRemotely, Tables.findRemoteUser, remoteUsers]
    rfl
  case filed =>
    intro filed folded user found
    rw [remoteUsers] at found
    rw [fold]
    exact filed folded user found
  case free => exact fun _ change member => absurd member List.not_mem_nil
  case notices => exact notices.trans (List.append_nil _).symm

theorem cmdUser (params : List String) : Shift s (s.cmdUser id params) [] := by
  rw [Server.cmdUser.eq_def]
  split
  · exact .queued rfl rfl
  · split
    · exact .reentered rfl rfl rfl rfl
    · exact .queued rfl rfl

theorem cmdAway (params : List String) : Shift s (s.cmdAway id params) [] := by
  rw [Server.cmdAway.eq_def]
  extract_lets away marked answered line told
  have marks : Shift s marked [] := .reentered rfl rfl rfl rfl
  have answers : Shift s answered [] := by
    clear_value away
    cases away with
    | some message => exact marks.trans (.queued rfl rfl)
    | none => exact marks.trans (.queued rfl rfl)
  split
  · exact answers.trans (.queued rfl rfl)
  · exact answers

theorem cmdSetname (params : List String) : Shift s (s.cmdSetname id params) [] := by
  rw [Server.cmdSetname.eq_def]
  split
  · exact .queued rfl rfl
  · exact .reentered rfl rfl rfl rfl

theorem userMode (target : String) (args : List String) : Shift s (s.userMode id target args) [] := by
  rw [Server.userMode.eq_def]
  split
  · split <;> exact .queued rfl rfl
  split
  · exact .queued rfl rfl
  · rename_i flags _
    extract_lets change recorded answered nick shown
    have tells := UserModeChange.tells (s.entry id) s.info.sid (s.localUid id) flags.toList
    have records : Shift s recorded [] := by
      refine .reentered rfl ?_ ?_ rfl <;> rw [tells.others]
    have answers : Shift s answered [] := by
      simp only [answered]
      split
      · exact records.trans (.queued rfl rfl)
      · exact records
    split
    · exact answers
    · exact answers.trans (.queued rfl rfl)

theorem cmdOper (params : List String) (crypto : Crypto) (opers : AccountStore)
    (operHosts : Table String (List String)) : Shift s (s.cmdOper id params crypto opers operHosts) [] := by
  rw [Server.cmdOper.eq_def]
  split
  · dsimp only
    split
    · exact .queued rfl rfl
    · split
      · exact .queued rfl rfl
      · exact .reentered rfl rfl rfl rfl
  · exact .queued rfl rfl

theorem saslSuccess (account : String) : Shift s (s.saslSuccess id account) [] :=
  .reentered rfl rfl rfl rfl

theorem cmdChghost (params : List String) : Shift s (s.cmdChghost id params) [] := by
  rw [Server.cmdChghost.eq_def]
  split
  · exact .queued rfl rfl
  · split
    · split
      · exact .queued rfl rfl
      · dsimp only
        split <;> exact .reentered rfl rfl rfl rfl
    · exact .queued rfl rfl

theorem killTarget (reason target : String) : Shift s (Server.killTarget id reason s target) [] := by
  rw [Server.killTarget]
  split
  · exact .queued rfl rfl
  · dsimp only
    split
    · exact .killed s _ _
    · split
      · rename_i user _
        have sent : Shift s (s.killRemote user ("Killed (" ++ (s.entry id).nick ++ ": " ++ reason ++ ")")) [] := by
          rw [Server.killRemote]
          exact .towards s _ _
        exact sent.trans (.queued rfl rfl)
      · exact .queued rfl rfl

theorem cmdKill (params : List String) : Shift s (s.cmdKill id params) [] := by
  rw [Server.cmdKill.eq_def]
  split
  · exact .queued rfl rfl
  split
  · exact .queued rfl rfl
  · exact foldl_invariant (I := fun later : Server => Shift s later []) _ _
      (fun later target _ shift => shift.trans (killTarget id _ target)) s (.refl s)

/-! ### Channels -/

theorem enterChannel (folded : String) (channel : ChannelEntry) (created : Bool) :
    Unnoticed s (s.enterChannel id folded channel created) := by
  have tables := Server.enterChannel_toTables s id folded channel created
  refine ⟨?_, by rw [tables]⟩
  have names (later : Server) (channel : ChannelEntry) : (later.sendNames id channel).fx.notices = later.fx.notices := by
    refine foldl_invariant (I := fun s : Server => s.fx.notices = later.fx.notices) _ _ ?_ later rfl
    exact fun _ _ _ same => same
  have topic (later : Server) (channel : ChannelEntry) :
      (later.sendTopicOnJoin id channel).fx.notices = later.fx.notices := by
    rw [Server.sendTopicOnJoin]
    split <;> rfl
  simp only [Server.enterChannel, Server.propagateSjoin]
  split
  · exact topic _ _
  · exact (names _ _).trans (topic _ _)

theorem joinOne (name : String) (key : Option String) : Shift s (s.joinOne id name key) [] := by
  refine .rooms (.joinOne s id name key) ?_
  rw [Server.joinOne]
  split
  · exact ⟨rfl, rfl⟩
  dsimp only
  split
  · exact ⟨rfl, rfl⟩
  split
  · exact ⟨rfl, rfl⟩
  have begun := (Silent.beginJoin s (s.fold name) name).unnoticed
  generalize s.beginJoin (s.fold name) name = joining at begun
  obtain ⟨later, created⟩ := joining
  dsimp only at begun ⊢
  split
  · exact begun
  · split
    · exact (Silent.endJoin _ _).unnoticed.after (begun.trans ⟨rfl, rfl⟩)
    · refine .trans ?_ (Silent.endJoin _ _).unnoticed
      refine begun.trans ?_
      split
      · exact enterChannel id _ _ created
      · exact (enterChannel id _ _ created).after ⟨rfl, rfl⟩

theorem partOne (name : String) (reason : Option String) : Shift s (s.partOne id name reason) [] := by
  refine .rooms (.partOne s id name reason) ?_
  rw [Server.partOne]
  dsimp only
  split
  · exact ⟨rfl, rfl⟩
  · split
    · exact ⟨rfl, rfl⟩
    · exact (Silent.reapChannel _ _).unnoticed.after ⟨rfl, rfl⟩

theorem kickOne (chan targetNick : String) (reason : Option String) :
    Shift s (s.kickOne id chan targetNick reason) [] := by
  refine .rooms (.kickOne s id chan targetNick reason) ?_
  have expelled (folded : String) (channel : ChannelEntry) (target : UInt64 ⊕ RemoteUser) (reason : String) :
      Unnoticed s (s.expel id folded channel target reason) := by
    have reaped {later : Server} (before : Unnoticed s later) (message : LinkMessage) :
        Unnoticed s ((later.reapChannel folded).propagateToLinks message) :=
      (before.trans (Silent.reapChannel later folded).unnoticed).trans ⟨rfl, rfl⟩
    rw [Server.expel.eq_def]
    cases target with
    | inl other =>
      refine reaped ?_ _
      exact ⟨rfl, rfl⟩
    | inr user =>
      refine reaped ?_ _
      exact ⟨rfl, rfl⟩
  have checked (folded : String) (channel : ChannelEntry) (target : UInt64 ⊕ RemoteUser) (reason : String)
      (isIn : Bool) (code : Nat) (params : List String) (text : Option String) :
      Unnoticed s (if isIn then s.numeric id code params text else s.expel id folded channel target reason) := by
    split
    · exact ⟨rfl, rfl⟩
    · exact expelled _ _ _ _
  rw [Server.kickOne]
  dsimp only
  split
  · exact ⟨rfl, rfl⟩
  split
  · exact ⟨rfl, rfl⟩
  split
  · exact ⟨rfl, rfl⟩
  split
  · exact ⟨rfl, rfl⟩
  · split <;> exact checked _ _ _ _ _ _ _ _

theorem cmdRename (old newName reason : String) : Shift s (s.cmdRename id old newName reason) [] := by
  refine .rooms (.cmdRename s id old newName reason) ?_
  have failed (code : String) (context : List String) (text : String) :
      Unnoticed s (s.fail id "RENAME" code context text) := by
    rw [Server.fail]
    split <;> exact ⟨rfl, rfl⟩
  rw [Server.cmdRename]
  split
  · exact failed _ _ _
  dsimp only
  split
  · exact ⟨rfl, rfl⟩
  split
  · exact ⟨rfl, rfl⟩
  split
  · exact ⟨rfl, rfl⟩
  split
  · rename_i moved
    exact ((Silent.renameChannel moved).trans (.broadcastRename _ _ _ _ _)).unnoticed.trans ⟨rfl, rfl⟩
  · exact failed _ _ _
  · exact ⟨rfl, rfl⟩

/-! ### Messages -/

theorem cmdMessage_notices (hooks : MessageHooks) (params : List String) (notice : Bool) (tags : Option String) :
    (s.cmdMessage id hooks.host params notice tags).1.fx.notices = s.fx.notices := by
  have toChannel (s : Server) (limit : Option Bool) (target text msgid : String) (batchRef : Option String) :
      (s.messageChannel id hooks.host limit target text notice msgid tags batchRef).1.fx.notices = s.fx.notices := by
    rw [Server.messageChannel]
    dsimp only
    split
    · rfl
    · split
      · rfl
      · split
        · rfl
        · refine (Server.relayToMembers_notices _ _ _ _).trans ?_
          split <;> rfl
  have toUser (s : Server) (target text msgid : String) (batchRef : Option String) :
      (s.messageUser id hooks.host target text notice msgid tags batchRef).1.fx.notices = s.fx.notices := by
    rw [Server.messageUser]
    dsimp only
    split
    · rfl
    · split
      · rfl
      · split
        · exact Server.sendTowards_notices _ _ _
        · rfl
  rw [Server.cmdMessage, Server.cmdMessageInner.eq_def]
  split
  · rfl
  · rfl
  · dsimp only
    split
    · exact toChannel _ _ _ _ _ _
    · exact toUser _ _ _ _ _

theorem say (hooks : MessageHooks) (params : List String) (notice : Bool) (tags : Option String) :
    Shift s (s.say id hooks params notice tags) [] := by
  refine .queued (Server.say_toTables s id hooks params notice tags) ?_
  rw [Server.say]
  refine (foldl_invariant (I := fun later : Server => later.fx.notices = s.fx.notices) _ _ ?_ _
    (cmdMessage_notices id hooks params notice tags))
  rintro later (⟨recipient, event⟩ | ⟨recipient, bytes⟩ | ⟨code, params, text⟩ | ⟨command, code, context, text⟩) - same
  · exact same
  · exact same
  · exact same
  · rw [Server.post, Server.fail]
    split <;> exact same

end Shift

/-! ## Nicks -/

/-- A client takes a nick that nobody has: what becomes of the tables, and what the watchers are told. -/
structure Renicks (s s' : Server) (id : UInt64) (nick : String) : Prop where
  free : s.clients.lookup (s.fold nick) = none
  unknown : s.remoteUsers.lookup (s.fold nick) = none
  info : s'.info = s.info
  registry : s'.toRegistry = s.toRegistry
  monitors : s'.monitors = s.monitors
  byId : s'.byId = s.byId.insert id
  entries : s'.entries = s.entries.insert id { s.entry id with nick }
  clients : s'.clients = if (s.entry id).nick = "*" then s.clients.insert (s.fold nick) id
    else (s.clients.insert (s.fold nick) id).erase (s.fold (s.entry id).nick)
  notices : s'.fx.notices = s.fx.notices ++
    if (s.entry id).registered then s'.words [(s.fold (s.entry id).nick, false), (s.fold nick, true)] else []

/-- `NICK` changes no more than case, or claims a nick. -/
theorem Server.cmdNick_renicks {s : Server} {id : UInt64} {connected : List UInt64}
    (locals : LocalConsistent s.toTables connected) (isOpen : id ∈ connected) (nick : String) :
    Shift s (s.cmdNick id nick) [] ∨ Renicks s (s.cmdNick id nick) id nick := by
  rw [Server.cmdNick]
  split
  · exact .inl (.queued rfl rfl)
  extract_lets folded current currentFolded registered renamed
  have announced (later : Server) : Unnoticed later ((later.broadcastNickChange id current nick).propagateNickChange id nick) := by
    have tables := Server.broadcastNickChange_toTables later id current nick
    refine ⟨?_, by rw [Server.propagateNickChange_toTables, tables]⟩
    refine foldl_invariant (I := fun s : Server => s.fx.notices = later.fx.notices) _ _ ?_ _ rfl
    intro s folded _ same
    split <;> exact same
  split
  · left
    split
    · exact .refl s
    · -- only the case changes
      have cased : Shift s renamed [] := .reentered rfl rfl rfl rfl
      split
      · refine cased.trans (.queued ?_ (announced renamed).notices)
        rw [Server.propagateNickChange_toTables, Server.broadcastNickChange_toTables]
      · exact cased
  · rename_i other
    obtain refused | ⟨own, -⟩ | ⟨free, claimed⟩ := s.claimNick_cases folded id
    · rw [refused]
      exact .inl (.queued rfl rfl)
    · -- the nick that a client holds is its own, up to case
      obtain ⟨-, nicked, here⟩ := locals.holds folded id own
      have isFolded : currentFolded = s.fold (s.entry id).nick := if_neg nicked
      refine absurd ⟨fun empty => locals.nonempty id isOpen ?_, (isFolded.trans here).symm⟩ other
      rw [isFolded] at empty
      exact (fold_eq_empty _ _).mp empty
    · right
      have unknown : s.remoteUsers.lookup folded = none := by
        refine AList.lookup_eq_none.mpr fun remote => ?_
        rw [Server.claimNick, if_pos remote] at claimed
        cases congrArg Prod.snd claimed
      simp only [claimed]
      have unnamed : currentFolded = "" ↔ (s.entry id).nick = "*" := by
        by_cases star : (s.entry id).nick = "*"
        · exact iff_of_true (if_pos star) star
        · have isFolded : currentFolded = s.fold (s.entry id).nick := if_neg star
          refine iff_of_false (fun empty => ?_) star
          rw [isFolded] at empty
          exact locals.nonempty id isOpen ((fold_eq_empty _ _).mp empty)
      generalize isTaken : ((if currentFolded = "" then
          ({ s with clients := s.clients.insert folded id, byId := s.byId.insert id } : Server)
        else ({ s with clients := s.clients.insert folded id, byId := s.byId.insert id } : Server).releaseNick
          currentFolded).setNick id nick) = taken
      have kept : taken.info = s.info ∧ taken.toRegistry = s.toRegistry ∧ taken.monitors = s.monitors ∧
          taken.byId = s.byId.insert id ∧ taken.entries = s.entries.insert id { s.entry id with nick } ∧
          taken.fx.notices = s.fx.notices := by
        rw [← isTaken]
        split <;> exact ⟨rfl, rfl, rfl, rfl, rfl, rfl⟩
      have clients : taken.clients = if (s.entry id).nick = "*" then s.clients.insert (s.fold nick) id
          else (s.clients.insert (s.fold nick) id).erase (s.fold (s.entry id).nick) := by
        rw [← isTaken]
        by_cases star : (s.entry id).nick = "*"
        · rw [if_pos (unnamed.mpr star), if_pos star]
          rfl
        · rw [if_neg fun empty => star (unnamed.mp empty), if_neg star, show currentFolded = _ from if_neg star]
          rfl
      obtain ⟨info, registry, monitors, byId, entries, notices⟩ := kept
      have renicks (final : Server) (tables : final.toTables = taken.toTables)
          (words : final.fx.notices = s.fx.notices ++ if (s.entry id).registered then
            taken.words [(s.fold (s.entry id).nick, false), (s.fold nick, true)] else []) :
          Renicks s final id nick := by
        constructor
        case free => exact free
        case unknown => exact unknown
        case info => rw [tables, info]
        case registry => rw [tables, registry]
        case monitors => rw [tables, monitors]
        case byId => rw [tables, byId]
        case entries => rw [tables, entries]
        case clients => rw [tables, clients]
        case notices => rw [tables, words]
      cases isRegistered : (s.entry id).registered with
      | false =>
        rw [show registered = false from isRegistered]
        refine renicks taken rfl ?_
        rw [isRegistered, notices]
        exact (List.append_nil _).symm
      | true =>
        rw [show registered = true from isRegistered, if_pos rfl]
        have whowas := Shift.recordWhowas taken current (taken.entry id).user (taken.entry id).host (taken.entry id).realname
        have tables := Server.recordWhowas_toTables taken current (taken.entry id).user (taken.entry id).host
          (taken.entry id).realname
        generalize taken.recordWhowas current (taken.entry id).user (taken.entry id).host
          (taken.entry id).realname = recorded at whowas tables ⊢
        have told := announced recorded
        have toldTables : ((recorded.broadcastNickChange id current nick).propagateNickChange id nick).toTables =
            taken.toTables := by
          rw [Server.propagateNickChange_toTables, Server.broadcastNickChange_toTables, tables]
        refine renicks _ ?_ ?_
        · rw [Server.monitorOnline_toTables, Server.monitorOffline_toTables, toldTables]
        · have fold : taken.fold = s.fold := by
            funext name
            rw [Tables.fold, Tables.fold, info]
          have quiet := whowas.notices
          rw [Tables.words, List.flatMap_nil, List.append_nil] at quiet
          rw [Server.monitorOnline_notices, Server.monitorOffline_notices, Server.monitorOffline_toTables, told.notices,
            quiet, toldTables, notices, fold, isRegistered, List.append_assoc, if_pos rfl]
          simp only [Tables.words, List.flatMap_cons, List.flatMap_nil, List.append_nil]
          rfl

/-! ## Departures -/

/-- The watchers of a client's nick, but the client itself, are told that it goes. -/
theorem Server.disconnect_notices (s : Server) (id : UInt64) (reason : String) :
    (s.disconnect id reason).fx.notices = s.fx.notices ++
      if ((s.entry id).registered && ((s.entry id).nick != "" && (s.entry id).nick != "*")) = true then
        announce ((watchers s.monitors (s.fold (s.entry id).nick)).filter fun other =>
          other ∈ s.byId.filter fun other => other != id) (s.fold (s.entry id).nick) false
      else [] := by
  have unwatched (names : List String) (later : Server) :
      (names.foldl (fun s folded => s.monitorUnwatch folded id) later).fx.notices = later.fx.notices := by
    refine foldl_invariant (I := fun s : Server => s.fx.notices = later.fx.notices) _ names ?_ later rfl
    intro s folded _ same
    rw [monitorUnwatch]
    split
    · exact same
    · dsimp only
      split <;> exact same
  have released (gone : Server) (named : Bool) :
      (if named then gone.releaseNick (gone.fold (s.entry id).nick) else gone).fx.notices = gone.fx.notices := by
    split <;> rfl
  have left : (if (s.entry id).registered then s.quitChannels id reason else s).fx.notices = s.fx.notices := by
    split
    · have whowas := (Shift.recordWhowas s (s.entry id).nick (s.entry id).user (s.entry id).host
        (s.entry id).realname).notices
      rw [Tables.words, List.flatMap_nil, List.append_nil] at whowas
      rw [quitChannels]
      refine (Silent.foldl_fst (fun state folded => ?_) _ (_, [id])).unnoticed.notices.trans whowas
      rw [leaveOnQuit]
      dsimp only
      split
      · exact .reapChannel _ folded
      · exact (Silent.reapChannel _ folded).after ⟨rfl, rfl, rfl⟩
    · rfl
  have leftTables : (if (s.entry id).registered then s.quitChannels id reason else s).toTables =
      { s.toTables with channels := (if (s.entry id).registered then s.quitChannels id reason else s).channels } := by
    split
    · rw [quitChannels_toTables]
    · rfl
  rw [disconnect]
  refine (released _ _).trans ((unwatched _ _).trans ?_)
  generalize (if (s.entry id).registered then s.quitChannels id reason else s) = later at left leftTables ⊢
  split
  · rw [monitorOffline_notices]
    have fold : later.fold = s.fold := by
      rw [leftTables]
      rfl
    have byId : later.byId = s.byId := by rw [leftTables]
    have monitors : later.monitors = s.monitors := by rw [leftTables]
    show later.fx.notices ++ _ = _
    rw [left]
    refine congrArg (s.fx.notices ++ ·) ?_
    simp only [Tables.words, Tables.audience, List.flatMap_cons, List.flatMap_nil, List.append_nil]
    rw [byId, monitors]
    show announce ((watchers s.monitors (later.fold _)).filter _) (later.fold _) false = _
    rw [fold]
  · exact left.trans (List.append_nil _).symm

/-! ## Watch lists -/

/-- The nicks that a `MONITOR` asks about, folded. -/
def Tables.asks (t : Tables) (id : UInt64) : List String → List String
  | sub :: rest =>
    if sub = "+" then rest.head?.elim [] fun list => (monitorTargets list).map t.fold
    else if sub = "S" ∨ sub = "s" then (t.entry id).monitor
    else []
  | [] => []

/-- What a client is told of the nicks it asked about. -/
def answers (id : UInt64) (asked : List Asked) : List PresenceNotice :=
  ((asked.filter fun one => one.mask.isSome).map fun one => ⟨id, one.folded, true⟩) ++
    (asked.filter fun one => one.mask.isNone).map fun one => ⟨id, one.folded, false⟩

theorem mem_answers {id : UInt64} {asked : List Asked} {notice : PresenceNotice} :
    notice ∈ answers id asked ↔ ∃ one ∈ asked, notice = ⟨id, one.folded, one.mask.isSome⟩ := by
  simp only [answers, List.mem_append, List.mem_map, List.mem_filter]
  constructor
  · rintro (⟨one, ⟨member, there⟩, rfl⟩ | ⟨one, ⟨member, away⟩, rfl⟩)
    · exact ⟨one, member, by rw [there]⟩
    · rw [Option.isNone_iff_eq_none] at away
      exact ⟨one, member, by rw [away]; rfl⟩
  · rintro ⟨one, member, rfl⟩
    cases mask : one.mask with
    | some mask => exact .inl ⟨one, ⟨member, by rw [mask]; rfl⟩, rfl⟩
    | none => exact .inr ⟨one, ⟨member, by rw [mask]; rfl⟩, rfl⟩

/-- Only watch lists change. -/
structure Rewatched (s s' : Server) : Prop where
  others : s'.toTables = { s.toTables with monitors := s'.monitors, entries := s'.entries }
  entry : ∀ id, s'.entry id = { s.entry id with monitor := (s'.entry id).monitor }
  notices : s'.fx.notices = s.fx.notices

namespace Rewatched

variable {s s' : Server}

theorem refl (s : Server) : Rewatched s s :=
  ⟨rfl, fun _ => rfl, rfl⟩

theorem queued (tables : s'.toTables = s.toTables) (notices : s'.fx.notices = s.fx.notices) : Rewatched s s' := by
  refine ⟨by rw [tables], fun id => ?_, notices⟩
  rw [Tables.entry, tables]
  rfl

theorem trans {first second third : Server} (left : Rewatched first second) (right : Rewatched second third) :
    Rewatched first third := by
  refine ⟨?_, fun id => ?_, right.notices.trans left.notices⟩
  · rw [right.others, left.others]
  · rw [right.entry, left.entry]

theorem watchNick (s : Server) (id : UInt64) (target : String) : Rewatched s (s.watchNick id target).1 := by
  refine ⟨rfl, fun other => ?_, rfl⟩
  have entry := Tables.entry_insert s.toTables (s.watchNick id target).1.toTables rfl other
  rw [entry]
  split
  · rename_i own
    rw [own]
  · rfl

theorem unwatchNick (s : Server) (id : UInt64) (folded : String) : Rewatched s (Server.unwatchNick id s folded) := by
  have tables := Server.monitorUnwatch_toTables
    (s.modifyEntry id fun entry => { entry with monitor := entry.monitor.filter fun name => name != folded }) folded id
  have entry := Tables.entry_insert s.toTables (Server.unwatchNick id s folded).toTables (by rw [Server.unwatchNick, tables]; rfl)
  refine ⟨?_, fun other => ?_, ?_⟩
  · rw [Server.unwatchNick, tables]
    rfl
  · rw [entry]
    split
    · rename_i own
      rw [own]
    · rfl
  · rw [Server.unwatchNick, Server.monitorUnwatch]
    split
    · rfl
    · dsimp only
      split <;> rfl

theorem unwatchAll (id : UInt64) (names : List String) (s : Server) :
    Rewatched s (names.foldl (Server.unwatchNick id) s) :=
  foldl_invariant (I := Rewatched s) _ names (fun later folded _ before => before.trans (unwatchNick later id folded)) s
    (refl s)

/-- Who holds a nick does not depend on who watches it. -/
theorem presenceMask (rewatched : Rewatched s s') (folded : String) : s'.presenceMask folded = s.presenceMask folded := by
  have clients : s'.findClient folded = s.findClient folded := by
    rw [Tables.findClient, Tables.findClient, rewatched.others]
  have remote : s'.findRemoteUser folded = s.findRemoteUser folded := by
    rw [Tables.findRemoteUser, Tables.findRemoteUser, rewatched.others]
  rw [Tables.presenceMask, Tables.presenceMask, clients, remote]
  cases s.findClient folded with
  | none => rfl
  | some id => exact congrArg some (by rw [rewatched.entry]; rfl)

theorem fold (rewatched : Rewatched s s') : s'.fold = s.fold := by
  rw [rewatched.others]
  rfl

end Rewatched

/-- A watcher of a nick watched it before, or asked about it now. -/
def Rewatched.Asking (s s' : Server) (id : UInt64) (asked : List Asked) : Prop :=
  ∀ folded other, other ∈ watchers s'.monitors folded →
    other ∈ watchers s.monitors folded ∨ (other = id ∧ ∃ one ∈ asked, one.folded = folded)

namespace Server

variable (s : Server) (id : UInt64)

theorem answerPresence_notices (asked : List Asked) :
    (s.answerPresence id asked).fx.notices = s.fx.notices ++ answers id asked := by
  have sent (s : Server) (asked : List Asked) (code : Nat) (payload : String) :
      (if asked.isEmpty then s else s.sendPresence id code (asked.map (·.folded)) payload).fx.notices =
        s.fx.notices ++ asked.map fun one => ⟨id, one.folded, decide (code = rplMonOnline)⟩ := by
    cases asked with
    | nil => exact (List.append_nil _).symm
    | cons one rest =>
      refine congrArg (s.fx.notices ++ ·) ?_
      simp
  rw [answerPresence]
  rw [sent, sent, answers, List.append_assoc]
  rfl

/-- Whoever asks to watch nicks learns who holds them. -/
theorem watchAll_asked (targets : List String) (s : Server) (before : List Asked) :
    ∃ asked, (watchAll id targets s before).2 = before ++ asked ∧
      Rewatched s (watchAll id targets s before).1 ∧ Rewatched.Asking s (watchAll id targets s before).1 id asked ∧
      ∀ one ∈ asked, one.mask = s.presenceMask one.folded ∧ one.folded ∈ targets.map s.fold := by
  induction targets generalizing s before with
  | nil => exact ⟨[], (List.append_nil _).symm, .refl s, fun _ _ watches => .inl watches, fun one member => absurd member List.not_mem_nil⟩
  | cons target rest ih =>
    rw [watchAll]
    dsimp only
    split
    · exact ⟨[], (List.append_nil _).symm, .queued rfl rfl, fun _ _ watches => .inl watches,
        fun one member => absurd member List.not_mem_nil⟩
    · have watched := Rewatched.watchNick s id target
      obtain ⟨asked, answered, rewatched, asking, masks⟩ := ih (s.watchNick id target).1
        (before ++ [(s.watchNick id target).2])
      refine ⟨(s.watchNick id target).2 :: asked, ?_, watched.trans rewatched, ?_, ?_⟩
      · rw [answered, List.append_assoc]
        rfl
      · intro folded other watches
        rcases asking folded other watches with earlier | ⟨own, one, member, here⟩
        · have inserted : other ∈ watchers (s.monitors.insert (s.fold target)
              ((watchers s.monitors (s.fold target)).insert id)) folded := earlier
          rcases (mem_watchers_insert _ _ _ _ _).mp inserted with still | ⟨here, own⟩
          · exact .inl still
          · exact .inr ⟨own, _, List.mem_cons_self, here.symm⟩
        · exact .inr ⟨own, one, List.mem_cons_of_mem _ member, here⟩
      · intro one member
        rcases List.mem_cons.mp member with rfl | later
        · exact ⟨watched.presenceMask _, List.mem_cons_self⟩
        · obtain ⟨mask, isTarget⟩ := masks one later
          rw [watched.presenceMask] at mask
          rw [watched.fold] at isTarget
          exact ⟨mask, List.mem_cons_of_mem _ isTarget⟩

/-- `MONITOR` changes watch lists, and tells who asks. -/
theorem cmdMonitor_asked (params : List String) : ∃ later asked, Rewatched s later ∧
    (s.cmdMonitor id params).toTables = later.toTables ∧
    (s.cmdMonitor id params).fx.notices = s.fx.notices ++ answers id asked ∧ Rewatched.Asking s later id asked ∧
    ∀ one ∈ asked, one.mask = s.presenceMask one.folded ∧ one.folded ∈ s.asks id params := by
  have quiet (later : Server) (rewatched : Rewatched s later)
      (fewer : ∀ folded other, other ∈ watchers later.monitors folded → other ∈ watchers s.monitors folded) :
      ∃ middle asked, Rewatched s middle ∧ later.toTables = middle.toTables ∧
        later.fx.notices = s.fx.notices ++ answers id asked ∧ Rewatched.Asking s middle id asked ∧
        ∀ one ∈ asked, one.mask = s.presenceMask one.folded ∧ one.folded ∈ s.asks id params :=
    ⟨later, [], rewatched, rfl, rewatched.notices.trans (List.append_nil _).symm,
      fun folded other watches => .inl (fewer folded other watches), fun one member => absurd member List.not_mem_nil⟩
  have dropped (names : List String) (s : Server) (folded : String) (other : UInt64)
      (watches : other ∈ watchers (names.foldl (unwatchNick id) s).monitors folded) : other ∈ watchers s.monitors folded := by
    induction names generalizing s with
    | nil => exact watches
    | cons name rest ih =>
      have one := ih _ watches
      have monitors : (unwatchNick id s name).monitors = unwatch id s.monitors name :=
        congrArg Watches.monitors (unwatchNick_watches s id name)
      rw [monitors] at one
      exact ((mem_watchers_unwatch _ _ _ _ _).mp one).1
  cases params with
  | nil => exact quiet _ (.queued rfl rfl) fun _ _ watches => watches
  | cons sub rest =>
    rw [cmdMonitor.eq_def]
    dsimp only
    split
    · rename_i plus
      cases rest with
      | nil => exact quiet _ (.queued rfl rfl) fun _ _ watches => watches
      | cons list rest =>
        obtain ⟨asked, answered, rewatched, asking, masks⟩ := watchAll_asked id (monitorTargets list) s []
        dsimp only
        rw [List.nil_append] at answered
        refine ⟨_, asked, rewatched, answerPresence_toTables _ _ _, ?_, asking, fun one member => ?_⟩
        · rw [answerPresence_notices, rewatched.notices, answered]
        · rw [Tables.asks, if_pos plus]
          exact masks one member
    · split
      · cases rest with
        | nil => exact quiet _ (.refl s) fun _ _ watches => watches
        | cons list rest => exact quiet _ (.unwatchAll id _ s) (dropped _ s)
      · split
        · exact quiet _ (.unwatchAll id _ s) (dropped _ s)
        · split
          · have tables := listWatched_toTables s id (s.entry id).monitor
            have notices : (s.listWatched id (s.entry id).monitor).fx.notices = s.fx.notices := by
              refine foldl_invariant (I := fun later : Server => later.fx.notices = s.fx.notices) _ _ ?_ s rfl
              exact fun _ _ _ same => same
            refine quiet _ (.queued tables notices) fun folded other watches => ?_
            rwa [tables] at watches
          · split
            · rename_i notPlus _ _ _ asksAll
              refine ⟨s, _, .refl s, answerPresence_toTables _ _ _, answerPresence_notices _ _ _,
                fun _ _ watches => .inl watches, fun one member => ?_⟩
              obtain ⟨folded, listed, rfl⟩ := List.mem_map.mp member
              refine ⟨rfl, ?_⟩
              rw [Tables.asks, if_neg notPlus, if_pos asksAll]
              exact listed
            · exact quiet _ (.refl s) fun _ _ watches => watches

end Server

/-! ## The invariant -/

/-- Every connected watcher of a nick was last told whether somebody holds it. -/
structure Node.Informs (node : Node) : Prop where
  locals : LocalConsistent node.server.toTables node.connected
  watches : node.server.watches.Indexed node.connected
  filed : node.server.Filed
  apart : node.server.Apart
  registered : ∀ id ∈ node.connected, (node.server.entry id).monitor ≠ [] → (node.server.entry id).registered = true
  informed : Informed (fun folded id => id ∈ watchers node.server.monitors folded)
    (fun folded online => online = node.server.present folded) node.server.fx.notices ∅

/-- The users elsewhere change, and so who is present. -/
theorem Shift.present {s s' : Server} {changes : List (String × Bool)} (shift : Shift s s' changes) (apart : s.Apart) :
    s'.present = revised s.present changes := by
  funext folded
  have here : ((s'.findClient folded).any fun id => (s'.entry id).registered) =
      (s.findClient folded).any fun id => (s.entry id).registered := by
    rw [Tables.findClient, shift.clients, ← Tables.findClient]
    simp only [(shift.entries _).1]
  have remote : (s'.findRemoteUser folded).isSome = revised s.presentRemotely changes folded :=
    congrFun shift.users folded
  rw [Tables.present, here, remote]
  by_cases touched : ∃ change ∈ changes, change.1 = folded
  · obtain ⟨change, member, same⟩ := touched
    have nobody := shift.free apart change member
    rw [same] at nobody
    rw [nobody, Option.any_none, Bool.false_or]
    exact revised_congr (.inr ⟨change, member, same⟩)
  · have untouched : ∀ change ∈ changes, change.1 ≠ folded := fun change member same => touched ⟨change, member, same⟩
    rw [revised_of_notMem untouched, revised_of_notMem untouched]
    rfl

namespace Node.Informs

variable {node : Node} (informs : node.Informs)
include informs

/-- Watchers are registered, so that they are told. -/
theorem audience {folded : String} {id : UInt64} (watches : id ∈ watchers node.server.monitors folded) :
    id ∈ node.server.audience folded := by
  obtain ⟨isOpen, listed⟩ := (informs.watches.index folded id).mp watches
  have registered := informs.registered id isOpen (List.ne_nil_of_mem listed)
  have byId := (informs.locals.occupies id isOpen (informs.locals.registered id isOpen registered)).2
  exact List.mem_filter.mpr ⟨watches, decide_eq_true byId⟩

/-- Who is present is told to all who watch. -/
theorem told {subscribes : String → UInt64 → Prop} (changes : List (String × Bool))
    (still : ∀ folded id, subscribes folded id → id ∈ watchers node.server.monitors folded) {receivers : String → List UInt64}
    (reaches : ∀ folded id, subscribes folded id → id ∈ receivers folded) :
    Informed subscribes (fun folded online => online = revised node.server.present changes folded)
      (node.server.fx.notices ++ changes.flatMap fun change => announce (receivers change.1) change.1 change.2) ∅ := by
  have fewer : Informed subscribes (fun folded online => online = node.server.present folded) node.server.fx.notices ∅ :=
    informs.informed.change fun folded settled => ⟨settled, fun id subscribed => ⟨still folded id subscribed,
      fun _ _ right => right⟩⟩
  exact fewer.announceAll reaches changes

/-- Changes elsewhere are told. -/
theorem shift {s' : Server} {changes : List (String × Bool)} (shift : Shift node.server s' changes)
    (locals : LocalConsistent s'.toTables node.connected) : Node.Informs ⟨s', node.connected⟩ := by
  have watches : s'.watches = node.server.watches := by
    apply Watches.ext
    · exact shift.fold
    · funext id
      exact (shift.entries id).2
    · exact shift.monitors
  constructor
  case locals => exact locals
  case watches => exact watches ▸ informs.watches
  case filed => exact shift.filed informs.filed
  case apart => exact shift.apart informs.apart
  case registered =>
    intro id isOpen watching
    rw [(shift.entries id).1]
    rw [(shift.entries id).2] at watching
    exact informs.registered id isOpen watching
  case informed =>
    have told := informs.told changes (fun _ _ watches => watches) fun folded id watches => informs.audience watches
    show Informed (fun folded id => id ∈ watchers s'.monitors folded) (fun folded online => online = s'.present folded)
      s'.fx.notices ∅
    rw [shift.monitors, shift.notices, shift.present informs.apart]
    exact told

/-- What clients do here is told as well. -/
theorem change {node' : Node} (changes : List (String × Bool)) (receivers : String → List UInt64)
    (info : node'.server.info = node.server.info) (registry : node'.server.toRegistry = node.server.toRegistry)
    (locals : LocalConsistent node'.server.toTables node'.connected)
    (watches : node'.server.watches.Indexed node'.connected)
    (holds : ∀ folded id, node'.server.findClient folded = some id →
      node.server.findRemoteUser folded = none ∨ ∃ holder, node.server.findClient folded = some holder)
    (registered : ∀ id ∈ node'.connected, (node'.server.entry id).monitor ≠ [] →
      (node'.server.entry id).registered = true)
    (present : node'.server.present = revised node.server.present changes)
    (notices : node'.server.fx.notices = node.server.fx.notices ++
      changes.flatMap fun change => announce (receivers change.1) change.1 change.2)
    (still : ∀ folded id, id ∈ watchers node'.server.monitors folded → id ∈ watchers node.server.monitors folded)
    (reaches : ∀ folded id, id ∈ watchers node'.server.monitors folded → id ∈ receivers folded) : node'.Informs := by
  have remoteUsers : node'.server.remoteUsers = node.server.remoteUsers := by rw [registry]
  constructor
  case locals => exact locals
  case watches => exact watches
  case filed =>
    intro folded user found
    rw [remoteUsers] at found
    rw [Tables.fold, info]
    exact informs.filed folded user found
  case apart =>
    intro folded remote
    have remote : node.server.presentRemotely folded = true := by
      rwa [Tables.presentRemotely, Tables.findRemoteUser, remoteUsers] at remote
    cases found : node'.server.findClient folded with
    | none => rfl
    | some id =>
      rcases holds folded id found with noUser | ⟨holder, held⟩
      · rw [Tables.presentRemotely, noUser] at remote
        cases remote
      · rw [informs.apart folded remote] at held
        cases held
  case registered => exact registered
  case informed =>
    rw [notices, present]
    exact informs.told changes still reaches

theorem connect (fresh : node.server.nextId ∉ node.connected) (host : String) :
    Node.Informs ⟨node.server.connect host, node.server.nextId :: node.connected⟩ := by
  have entry := Tables.entry_insert node.server.toTables (node.server.connect host).toTables rfl
  have old {id : UInt64} (isOpen : id ∈ node.connected) :
      (node.server.connect host).entry id = node.server.entry id := by
    rw [entry, if_neg fun same => fresh (by rwa [same] at isOpen)]
  refine informs.change [] node.server.audience rfl rfl (informs.locals.connect fresh host) ?_
    (fun _ id found => .inr ⟨id, found⟩) ?_ ?_ (List.append_nil _).symm (fun _ _ watches => watches)
    fun _ _ watches => informs.audience watches
  · have performed : WatchCall.Performs node ⟨node.server.connect host, node.server.nextId :: node.connected⟩
        (.connect host) := ⟨fresh, rfl⟩
    exact WatchCall.Indexed.perform informs.watches performed
  · intro id isOpen watching
    rcases List.mem_cons.mp isOpen with rfl | before
    · rw [entry, if_pos rfl] at watching
      exact absurd rfl watching
    · rw [old before] at watching ⊢
      exact informs.registered id before watching
  · funext folded
    simp only [Tables.present, revised, List.foldl_nil]
    show (((node.server.findClient folded).any fun id => ((node.server.connect host).entry id).registered) ||
      (node.server.findRemoteUser folded).isSome) = _
    cases found : node.server.findClient folded with
    | none => rfl
    | some id =>
      rw [Option.any_some, Option.any_some, old (informs.locals.holds folded id found).1]

/-- A nick is given up and another one taken. -/
theorem cmdNick {id : UInt64} (isOpen : id ∈ node.connected) (nick : String) :
    Node.Informs ⟨node.server.cmdNick id nick, node.connected⟩ := by
  have kept := informs.locals.cmdNick isOpen nick
  rcases Server.cmdNick_renicks informs.locals isOpen nick with shift | renicks
  · exact informs.shift shift kept
  generalize node.server.cmdNick id nick = later at kept renicks ⊢
  have entry := Tables.entry_insert _ _ renicks.entries
  have lookup := informs.locals.lookup_renicked renicks.free renicks.clients isOpen
  have same (other : UInt64) : (later.entry other).registered = (node.server.entry other).registered ∧
      (later.entry other).monitor = (node.server.entry other).monitor := by
    rw [entry]
    split
    · rename_i here
      rw [here]
      exact ⟨rfl, rfl⟩
    · exact ⟨rfl, rfl⟩
  have watches : later.watches = node.server.watches := by
    apply Watches.ext
    · funext name
      show later.fold name = node.server.fold name
      rw [Tables.fold, Tables.fold, renicks.info]
    · funext other
      exact (same other).2
    · exact renicks.monitors
  have remote (folded : String) : later.findRemoteUser folded = node.server.findRemoteUser folded := by
    rw [Tables.findRemoteUser, Tables.findRemoteUser, renicks.registry]
  have present : later.present = revised node.server.present (if (node.server.entry id).registered then
      [(node.server.fold (node.server.entry id).nick, false), (node.server.fold nick, true)] else []) := by
    funext folded
    simp only [Tables.present, Tables.findClient, lookup, (same _).1, remote]
    have unknown : node.server.findRemoteUser (node.server.fold nick) = none := renicks.unknown
    have free : node.server.clients.lookup (node.server.fold nick) = none := renicks.free
    cases isRegistered : (node.server.entry id).registered with
    | true =>
      have nicked := informs.locals.registered id isOpen isRegistered
      have held := (informs.locals.occupies id isOpen nicked).1
      rw [if_pos rfl, revised, List.foldl_cons, List.foldl_cons, List.foldl_nil, Function.update_apply,
        Function.update_apply]
      dsimp only
      by_cases isNew : folded = node.server.fold nick
      · rw [if_pos isNew, if_pos isNew, Option.any_some, isRegistered, Bool.true_or]
      · rw [if_neg isNew, if_neg isNew]
        by_cases isOld : folded = node.server.fold (node.server.entry id).nick
        · rw [if_pos ⟨nicked, isOld⟩, if_pos isOld, Option.any_none, Bool.false_or, isOld]
          -- the nick was held here, and so by nobody elsewhere
          cases elsewhere : node.server.presentRemotely (node.server.fold (node.server.entry id).nick) with
          | true =>
            have nobody := informs.apart _ elsewhere
            rw [Tables.findClient, held] at nobody
            cases nobody
          | false => exact elsewhere
        · rw [if_neg fun both => isOld both.2, if_neg isOld]
          rfl
    | false =>
      rw [if_neg Bool.false_ne_true, revised, List.foldl_nil]
      by_cases isNew : folded = node.server.fold nick
      · rw [if_pos isNew, isNew, Tables.present, Tables.findClient, free, unknown, Option.any_some, isRegistered]
        rfl
      · rw [if_neg isNew]
        split
        · rename_i isOld
          rw [Tables.present, Tables.findClient, isOld.2, (informs.locals.occupies id isOpen isOld.1).1, Option.any_some,
            isRegistered]
          rfl
        · rfl
  refine informs.change _ later.audience renicks.info renicks.registry kept ?_ ?_ ?_ present ?_ ?_ ?_
  · exact watches ▸ informs.watches
  · intro folded holder found
    rw [Tables.findClient, lookup] at found
    split at found
    · rename_i isNew
      exact .inl (isNew ▸ renicks.unknown)
    · split at found
      · cases found
      · exact .inr ⟨holder, found⟩
  · intro other otherOpen watching
    rw [(same other).1]
    rw [(same other).2] at watching
    exact informs.registered other otherOpen watching
  · refine renicks.notices.trans (congrArg (node.server.fx.notices ++ ·) ?_)
    split <;> rfl
  · exact fun folded other watches => renicks.monitors ▸ watches
  · intro folded other watches
    have told := informs.audience (show other ∈ watchers node.server.monitors folded from renicks.monitors ▸ watches)
    obtain ⟨-, byId⟩ := List.mem_filter.mp told
    refine List.mem_filter.mpr ⟨watches, decide_eq_true ?_⟩
    show other ∈ later.byId
    rw [renicks.byId]
    exact List.mem_insert_of_mem (of_decide_eq_true byId)

/-- A client leaves. -/
theorem closeConnection {id : UInt64} (isOpen : id ∈ node.connected) (reason : String) :
    Node.Informs ⟨node.server.closeConnection id reason, node.connected.filter fun other => other != id⟩ := by
  have kept := informs.locals.closeConnection isOpen reason
  have tables : (node.server.closeConnection id reason).toTables = (node.server.disconnect id reason).toTables := by
    rw [Server.closeConnection]
    split
    · rw [Server.disconnect_toTables, Server.disconnect_toTables]
      rfl
    · rfl
  have notices : (node.server.closeConnection id reason).fx.notices =
      (node.server.disconnect id reason).fx.notices := by
    rw [Server.closeConnection]
    split
    · rw [Server.disconnect_notices, Server.disconnect_notices]
      rfl
    · rfl
  rw [Server.disconnect_notices] at notices
  have lookup (folded : String) : (node.server.closeConnection id reason).clients.lookup folded =
      (node.server.clients.lookup folded).filter fun holder => holder != id := by
    rw [tables]
    exact informs.locals.lookup_disconnect isOpen reason folded
  rw [Server.disconnect_toTables] at tables
  have performed : WatchCall.Performs node ⟨node.server.closeConnection id reason,
      node.connected.filter fun other => other != id⟩ (.closeConnection id reason) := ⟨isOpen, rfl⟩
  have watches := WatchCall.Indexed.perform informs.watches performed
  generalize node.server.closeConnection id reason = later at kept tables notices lookup watches ⊢
  have entry (other : UInt64) : later.entry other = node.server.entry other := by
    rw [Tables.entry, Tables.entry, tables]
  have named (registered : (node.server.entry id).registered = true) :
      ((node.server.entry id).nick != "" && (node.server.entry id).nick != "*") = true := by
    simp [informs.locals.nonempty id isOpen, informs.locals.registered id isOpen registered]
  have fewer (folded : String) (other : UInt64) (watching : other ∈ watchers later.monitors folded) :
      other ∈ watchers node.server.monitors folded ∧ other ≠ id := by
    obtain ⟨stays, -⟩ := (watches.index folded other).mp watching
    refine ⟨?_, by simpa using (List.mem_filter.mp stays).2⟩
    rw [tables] at watching
    exact ((mem_watchers_unwatchAll _ _ _ _ _).mp watching).1
  refine informs.change (if (node.server.entry id).registered then [(node.server.fold (node.server.entry id).nick, false)]
    else []) (fun folded => (watchers node.server.monitors folded).filter fun other =>
      other ∈ node.server.byId.filter fun other => other != id)
    (by rw [tables]) (by rw [tables]) kept watches ?_ ?_ ?_ ?_ (fun folded other watching => (fewer folded other watching).1) ?_
  · intro folded holder found
    rw [Tables.findClient, lookup] at found
    exact .inr ⟨holder, (Option.filter_eq_some_iff.mp found).1⟩
  · intro other stays watching
    rw [entry] at watching ⊢
    exact informs.registered other (List.mem_of_mem_filter stays) watching
  · funext folded
    have remote : later.findRemoteUser folded = node.server.findRemoteUser folded := by
      rw [Tables.findRemoteUser, Tables.findRemoteUser, tables]
    simp only [Tables.present, Tables.findClient, lookup, entry, remote]
    cases isRegistered : (node.server.entry id).registered with
    | true =>
      have nicked := informs.locals.registered id isOpen isRegistered
      have held := (informs.locals.occupies id isOpen nicked).1
      rw [if_pos rfl, revised, List.foldl_cons, List.foldl_nil, Function.update_apply]
      dsimp only
      by_cases own : folded = node.server.fold (node.server.entry id).nick
      · rw [if_pos own, own, held]
        cases elsewhere : node.server.presentRemotely (node.server.fold (node.server.entry id).nick) with
        | true =>
          have nobody := informs.apart _ elsewhere
          rw [Tables.findClient, held] at nobody
          cases nobody
        | false => simpa [Option.filter, Tables.presentRemotely] using elsewhere
      · rw [if_neg own]
        cases found : node.server.clients.lookup folded with
        | none => simp [Tables.present, Tables.findClient, found]
        | some holder =>
          have apart : holder ≠ id := fun same => own (same ▸ (informs.locals.holds folded holder found).2.2.symm)
          simp [Tables.present, Tables.findClient, found, Option.filter, apart]
    | false =>
      rw [if_neg Bool.false_ne_true, revised, List.foldl_nil]
      cases found : node.server.clients.lookup folded with
      | none => simp [Tables.present, Tables.findClient, found]
      | some holder =>
        by_cases own : holder = id
        · simp [Tables.present, Tables.findClient, found, Option.filter, own, isRegistered]
        · simp [Tables.present, Tables.findClient, found, Option.filter, own]
  · rw [notices]
    cases isRegistered : (node.server.entry id).registered with
    | true =>
      rw [Bool.true_and, if_pos (named isRegistered), if_pos rfl, List.flatMap_cons, List.flatMap_nil, List.append_nil]
    | false => rfl
  · intro folded other watching
    obtain ⟨before, apart⟩ := fewer folded other watching
    obtain ⟨-, byId⟩ := List.mem_filter.mp (informs.audience before)
    refine List.mem_filter.mpr ⟨before, decide_eq_true (List.mem_filter.mpr ⟨of_decide_eq_true byId, ?_⟩)⟩
    exact bne_iff_ne.mpr apart

/-- A client registers, unless a server ban turns it away. -/
theorem completeRegistration {id : UInt64} (isOpen : id ∈ node.connected) (nicked : (node.server.entry id).nick ≠ "*")
    (cloak : String) : Node.Informs ⟨node.server.completeRegistration id cloak,
      if (node.server.matchesKline (node.server.entry id).realHostmask).isSome then
        node.connected.filter fun other => other != id
      else node.connected⟩ := by
  have kept := informs.locals.completeRegistration isOpen nicked cloak
  rw [Server.completeRegistration] at kept ⊢
  cases banned : node.server.matchesKline (node.server.entry id).realHostmask with
  | some reason => exact informs.closeConnection isOpen _
  | none =>
    rw [banned] at kept
    simp only [Option.isSome_none, Bool.false_eq_true, if_false] at kept ⊢
    generalize isLater : Server.monitorOnline _ _ _ = later at kept ⊢
    have tables : later.toTables = { node.server.toTables with
        entries := node.server.entries.insert id { node.server.entry id with host := cloak, registered := true } } := by
      rw [← isLater, Server.monitorOnline_toTables, Server.introduceLocal_toTables]
      rfl
    have entry := Tables.entry_insert node.server.toTables later.toTables (by rw [tables])
    have notices : later.fx.notices = node.server.fx.notices ++
        node.server.words [(node.server.fold (node.server.entry id).nick, true)] := by
      have introduced (s : Server) : (s.introduceLocal id).fx.notices = s.fx.notices := by
        rw [Server.introduceLocal]
        split <;> rfl
      have nick : ((node.server.modifyEntry id fun entry => { entry with host := cloak, registered := true }).entry
          id).nick = (node.server.entry id).nick := by
        rw [Tables.entry_insert node.server.toTables _ rfl, if_pos rfl]
      rw [← isLater, Server.monitorOnline_notices, introduced, Server.introduceLocal_toTables, nick]
      rfl
    have watches : later.watches = node.server.watches := by
      apply Watches.ext
      · show later.fold = node.server.fold
        rw [tables]
        rfl
      · funext other
        show (later.entry other).monitor = (node.server.entry other).monitor
        rw [entry]
        split
        · rename_i own
          rw [own]
        · rfl
      · show later.monitors = node.server.monitors
        rw [tables]
    have clients (folded : String) : later.findClient folded = node.server.findClient folded := by
      rw [Tables.findClient, Tables.findClient, tables]
    refine informs.change [(node.server.fold (node.server.entry id).nick, true)] node.server.audience (by rw [tables])
      (by rw [tables]) kept (watches ▸ informs.watches) ?_ ?_ ?_ notices ?_ ?_
    · intro folded holder found
      rw [clients] at found
      exact .inr ⟨holder, found⟩
    · intro other otherOpen watching
      rw [entry] at watching ⊢
      split
      · rfl
      · rename_i apart
        rw [if_neg apart] at watching
        exact informs.registered other otherOpen watching
    · funext folded
      have remote : later.findRemoteUser folded = node.server.findRemoteUser folded := by
        rw [Tables.findRemoteUser, Tables.findRemoteUser, tables]
      rw [revised, List.foldl_cons, List.foldl_nil, Function.update_apply, Tables.present, clients, remote]
      dsimp only
      by_cases own : folded = node.server.fold (node.server.entry id).nick
      · rw [if_pos own, own, Tables.findClient, (informs.locals.occupies id isOpen nicked).1, Option.any_some, entry,
          if_pos rfl, Bool.true_or]
      · rw [if_neg own, Tables.present]
        cases found : node.server.findClient folded with
        | none => rfl
        | some holder =>
          have apart : holder ≠ id := fun same => own (same ▸ (informs.locals.holds folded holder found).2.2.symm)
          rw [Option.any_some, Option.any_some, entry, if_neg apart]
    · intro folded other watching
      rwa [tables] at watching
    · intro folded other watching
      rw [tables] at watching
      exact informs.audience watching

/-- Whoever asks about nicks that nobody is about to register with is told the truth. -/
theorem cmdMonitor {id : UInt64} (isOpen : id ∈ node.connected) (isRegistered : (node.server.entry id).registered = true)
    (params : List String) (settled : ∀ folded ∈ node.server.asks id params, ∀ holder,
      node.server.findClient folded = some holder → (node.server.entry holder).registered = true) :
    Node.Informs ⟨node.server.cmdMonitor id params, node.connected⟩ := by
  obtain ⟨later, asked, rewatched, tables, notices, asking, masks⟩ := node.server.cmdMonitor_asked id params
  have performed : WatchCall.Performs node ⟨node.server.cmdMonitor id params, node.connected⟩ (.cmdMonitor id params) :=
    ⟨isOpen, rfl⟩
  have watches := WatchCall.Indexed.perform informs.watches performed
  have others := Server.cmdMonitor_keeps (I := fun w => ∀ other, other ≠ id →
      w.lists other = (node.server.entry other).monitor)
    (fun w folded kept _ other apart => (if_neg apart).trans (kept other apart))
    (fun w folded kept other apart => (if_neg apart).trans (kept other apart)) params fun other _ => rfl
  generalize node.server.cmdMonitor id params = final at tables notices watches others ⊢
  have entry (other : UInt64) : final.entry other =
      { node.server.entry other with monitor := (later.entry other).monitor } := by
    rw [tables, rewatched.entry]
  have same : final.toTables = { node.server.toTables with monitors := later.monitors, entries := later.entries } := by
    rw [tables, rewatched.others]
  have present : final.present = node.server.present := by
    funext folded
    have clients : final.findClient folded = node.server.findClient folded := by
      rw [Tables.findClient, Tables.findClient, same]
    have remote : final.findRemoteUser folded = node.server.findRemoteUser folded := by
      rw [Tables.findRemoteUser, Tables.findRemoteUser, same]
    rw [Tables.present, Tables.present, clients, remote]
    simp only [entry]
  constructor
  case locals =>
    refine informs.locals.of_sameNicks (by rw [same]) (by rw [same]) (by rw [same]) (fun other => .of_eq ?_) ?_ ?_ ?_ ?_
    · rw [entry]
    · intro folded other
      rw [entry, show final.channels = node.server.channels by rw [same]]
      exact informs.locals.memberOf folded other
    · rw [show final.channels = node.server.channels by rw [same]]
      exact informs.locals.named
    · intro other otherOpen isIn
      rw [entry] at isIn ⊢
      exact informs.locals.joined other otherOpen isIn
    · intro other otherOpen registered
      rw [entry] at registered
      exact informs.locals.registered other otherOpen registered
  case watches => exact watches
  case filed =>
    rw [same]
    exact informs.filed
  case apart =>
    rw [same]
    exact informs.apart
  case registered =>
    intro other otherOpen watching
    have registered : (final.entry other).registered = (node.server.entry other).registered := by rw [entry]
    rw [registered]
    by_cases own : other = id
    · rw [own]
      exact isRegistered
    · have list : (final.entry other).monitor = (node.server.entry other).monitor := others other own
      rw [list] at watching
      exact informs.registered other otherOpen watching
  case informed =>
    show Informed (fun folded id => id ∈ watchers final.monitors folded) (fun folded online => online = final.present folded)
      final.fx.notices ∅
    rw [notices, present]
    refine informs.informed.tell ?_ ?_
    · intro notice member _
      obtain ⟨one, isAsked, rfl⟩ := mem_answers.mp member
      obtain ⟨mask, asks⟩ := masks one isAsked
      dsimp only
      rw [mask, Tables.presenceMask, Tables.present]
      cases found : node.server.findClient one.folded with
      | none => simp
      | some holder => simp [settled _ asks holder found]
    · intro folded untouched other watching
      have monitors : final.monitors = later.monitors := by rw [tables]
      rw [monitors] at watching
      rcases asking folded other watching with before | ⟨own, one, isAsked, here⟩
      · exact .inr ⟨untouched, before⟩
      · exact .inl ⟨_, mem_answers.mpr ⟨one, isAsked, rfl⟩, own.symm, here⟩

end Node.Informs

/-! ## Runs -/

/-- What clients and peers do, in any order. -/
inductive PresenceEvent where
  | call (issued : ClientCall)
  | monitor (id : UInt64) (params : List String)
  | frame (peerSid : String) (message : LinkMessage)
  | dropLink (sid : String)

namespace PresenceEvent

/-- A server starts without clients and users, and `MONITOR` is for registered clients. -/
def machine : Machine Node PresenceEvent where
  start node := (node.server.clients = ∅ ∧ node.server.channels = ∅ ∧ node.connected = []) ∧
    node.server.remoteUsers = ∅ ∧ node.server.monitors = ∅
  step node event node' := match event with
    | .call issued => issued.Performs node node'
    | .monitor id params => id ∈ node.connected ∧ (node.server.entry id).registered = true ∧
        node' = ⟨node.server.cmdMonitor id params, node.connected⟩
    | .frame peerSid message => node' = ⟨node.server.receive peerSid message, node.connected⟩
    | .dropLink sid => node' = ⟨node.server.dropLink sid, node.connected⟩

/-- Nobody asks about a nick whose holder has not registered yet.  Frames take no nick from a client, and take no nick
from a user that changes its nick. -/
def Settled (node : Node) : PresenceEvent → Prop
  | call _ => True
  | monitor id params => ∀ folded ∈ node.server.asks id params, ∀ holder,
      node.server.findClient folded = some holder → (node.server.entry holder).registered = true
  | frame _ message => message.Peaceable node.server.toTables
  | dropLink _ => True

variable {node node' : Node}

theorem call_informs (informs : node.Informs) {issued : ClientCall} (performed : issued.Performs node node') :
    node'.Informs := by
  have locals := informs.locals
  cases issued with
  | connect host =>
    obtain ⟨fresh, rfl⟩ := performed
    exact informs.connect fresh host
  | cmdUser id params =>
    cases performed
    exact informs.shift (.cmdUser id params) (Announces.cmdUser locals id params).locals
  | cmdNick id nick =>
    obtain ⟨isOpen, rfl⟩ := performed
    exact informs.cmdNick isOpen nick
  | completeRegistration id cloak =>
    obtain ⟨isOpen, nicked, -, rfl⟩ := performed
    exact informs.completeRegistration isOpen nicked cloak
  | cmdAway id params =>
    obtain ⟨isOpen, rfl⟩ := performed
    obtain ⟨messages, announces⟩ := Announces.cmdAway locals isOpen params
    exact informs.shift (.cmdAway id params) announces.locals
  | cmdSetname id params =>
    obtain ⟨isOpen, rfl⟩ := performed
    obtain ⟨messages, announces⟩ := Announces.cmdSetname locals isOpen params
    exact informs.shift (.cmdSetname id params) announces.locals
  | userMode id target args =>
    obtain ⟨isOpen, rfl⟩ := performed
    obtain ⟨messages, announces⟩ := Announces.userMode locals isOpen target args
    exact informs.shift (.userMode id target args) announces.locals
  | cmdOper id params crypto opers operHosts =>
    obtain ⟨isOpen, rfl⟩ := performed
    obtain ⟨messages, announces⟩ := Announces.cmdOper locals isOpen params crypto opers operHosts
    exact informs.shift (.cmdOper id params crypto opers operHosts) announces.locals
  | cmdChghost id params =>
    cases performed
    obtain ⟨target, messages, announces⟩ := Announces.cmdChghost locals id params
    exact informs.shift (.cmdChghost id params) announces.locals
  | saslSuccess id account =>
    obtain ⟨isOpen, rfl⟩ := performed
    refine informs.shift (.saslSuccess id account) ?_
    have entered : LocalConsistent (node.server.modifyEntry id fun entry =>
        { entry with account := some account }).toTables node.connected :=
      locals.reentered (.of_eq rfl) rfl (fun registered => registered) (locals.registered id isOpen)
    exact entered.of_toTables rfl
  | cmdKill id params =>
    cases performed
    exact informs.shift (.cmdKill id params) (Aside.cmdKill locals id params).locals
  | joinOne id name key =>
    obtain ⟨isOpen, registered, rfl⟩ := performed
    exact informs.shift (.joinOne id name key) (locals.joinOne isOpen registered name key)
  | partOne id name reason =>
    cases performed
    exact informs.shift (.partOne id name reason) (locals.partOne id name reason)
  | kickOne id chan targetNick reason =>
    cases performed
    exact informs.shift (.kickOne id chan targetNick reason) (locals.kickOne id chan targetNick reason)
  | cmdRename id old newName reason =>
    cases performed
    exact informs.shift (.cmdRename id old newName reason) (locals.cmdRename id old newName reason)
  | say id hooks params notice tags =>
    cases performed
    exact informs.shift (.say id hooks params notice tags)
      (locals.of_toTables (node.server.say_toTables id hooks params notice tags))
  | closeConnection id reason =>
    obtain ⟨isOpen, rfl⟩ := performed
    exact informs.closeConnection isOpen reason

theorem step_informs (informs : node.Informs) {event : PresenceEvent} (settled : event.Settled node)
    (step : machine.step node event node') : node'.Informs := by
  cases event with
  | call issued => exact call_informs informs step
  | monitor id params =>
    obtain ⟨isOpen, registered, rfl⟩ := step
    exact informs.cmdMonitor isOpen registered params settled
  | frame peerSid message =>
    cases step
    have told : ∃ changes, Shift node.server (node.server.receive peerSid message) changes :=
      Shift.receive informs.filed settled
    obtain ⟨changes, shift⟩ := told
    exact informs.shift shift (informs.locals.receive peerSid message)
  | dropLink sid =>
    cases step
    obtain ⟨changes, shift⟩ := Shift.dropLink node.server sid informs.filed
    exact informs.shift shift (informs.locals.undisturbed (.of_moves (.dropLink node.server sid)))

theorem start_informs (start : machine.start node) : node.Informs := by
  obtain ⟨fresh, noUsers, noWatchers⟩ := start
  have nobody (folded : String) : node.server.remoteUsers.lookup folded = none := by
    rw [noUsers]
    rfl
  have watchless (folded : String) (id : UInt64) : id ∉ watchers node.server.monitors folded := by
    rw [noWatchers]
    exact List.not_mem_nil
  have started : SessionCall.machine.start node := fresh
  constructor
  case locals => exact SessionCall.run_localConsistent (.start started)
  case watches =>
    have watching : WatchCall.machine.start node := ⟨noWatchers, fresh.2.2⟩
    exact WatchCall.run_indexed (.start watching)
  case filed =>
    intro folded user found
    rw [nobody] at found
    cases found
  case apart =>
    intro folded remote
    rw [Tables.presentRemotely, Tables.findRemoteUser, nobody] at remote
    cases remote
  case registered =>
    intro id isOpen
    rw [fresh.2.2] at isOpen
    cases isOpen
  case informed => exact fun folded _ id watches => absurd watches (watchless folded id)

theorem run_informs (run : machine.GuardedRun (fun node event => event.Settled node) node) : node.Informs := by
  refine run.invariant (I := Node.Informs) (fun _ start => start_informs start) ?_
  intro state event next informs settled step
  exact step_informs informs settled step

/-- The last presence numeric that a client got about a nick it watches says online exactly if a registered client or a
user of another server has that nick. -/
theorem run_presence (run : machine.GuardedRun (fun node event => event.Settled node) node) :
    ∀ id ∈ node.connected, ∀ folded ∈ (node.server.entry id).monitor,
      ∃ online, latest node.server.fx.notices id folded = some online ∧
        (online = true ↔
          (∃ holder, node.server.findClient folded = some holder ∧ (node.server.entry holder).registered = true) ∨
            ∃ user, node.server.findRemoteUser folded = some user) := by
  intro id isOpen folded listed
  have informs := run_informs run
  have watches : id ∈ watchers node.server.monitors folded := (informs.watches.index folded id).mpr ⟨isOpen, listed⟩
  obtain ⟨online, told, right⟩ := informs.informed folded (Set.notMem_empty folded) id watches
  refine ⟨online, told, ?_⟩
  rw [right, Tables.present, Bool.or_eq_true, Option.any_eq_true, Option.isSome_iff_exists]

/-! ### Alice watches bob -/

/-- Alice connects and takes a nick. -/
def aliceWaits : Node :=
  ⟨(Network.linkedAlpha.connect "a.example").cmdNick 1 "alice", [1]⟩

/-- She says who she is. -/
def aliceAnswers : Node :=
  ⟨aliceWaits.server.cmdUser 1 ["alice", "0", "*", "Alice Liddell"], [1]⟩

/-- She registers. -/
def aliceEnters : Node :=
  ⟨aliceAnswers.server.completeRegistration 1 "cloak.example", [1]⟩

/-- She watches bob. -/
def aliceWatches : Node :=
  let (server, asked) := Server.watchAll 1 ["Bob"] aliceEnters.server []
  ⟨server.answerPresence 1 asked, [1]⟩

/-- Bob connects to the other server. -/
def bobEnters : Node :=
  ⟨aliceWatches.server.receive "2BB" (.uid "2BB" "2BB1" 0 "bob" "bob" "b.example" "*" "Bob"), [1]⟩

theorem monitorTargets_bob : monitorTargets "Bob" = ["Bob"] := by
  have whole : "Bob".splitOn "," = ["Bob"] := splitOn_clean (by decide)
  rw [monitorTargets, whole]
  decide

theorem aliceEnters_cmdMonitor : aliceWatches = ⟨aliceEnters.server.cmdMonitor 1 ["+", "Bob"], [1]⟩ := by
  simp only [Server.cmdMonitor, if_true, monitorTargets_bob]
  rfl

theorem run_presence_bob : latest bobEnters.server.fx.notices 1 "bob" = some true := by
  have connects : machine.GuardedRun (fun node event => event.Settled node)
      ⟨Network.linkedAlpha.connect "a.example", [1]⟩ := by
    have start : machine.start ⟨Network.linkedAlpha, []⟩ := ⟨⟨rfl, rfl, rfl⟩, rfl, rfl⟩
    exact .step (e := .call (.connect "a.example")) (.start start) trivial ⟨by decide, rfl⟩
  have waits : machine.GuardedRun (fun node event => event.Settled node) aliceWaits :=
    .step (e := .call (.cmdNick 1 "alice")) connects trivial ⟨by decide, rfl⟩
  have answers : machine.GuardedRun (fun node event => event.Settled node) aliceAnswers :=
    .step (e := .call (.cmdUser 1 ["alice", "0", "*", "Alice Liddell"])) waits trivial rfl
  have enters : machine.GuardedRun (fun node event => event.Settled node) aliceEnters :=
    .step (e := .call (.completeRegistration 1 "cloak.example")) answers trivial
      ⟨by decide, by decide +kernel, by decide +kernel, rfl⟩
  have watches : machine.GuardedRun (fun node event => event.Settled node) aliceWatches := by
    refine .step (e := .monitor 1 ["+", "Bob"]) enters ?_ ⟨by decide, by decide +kernel, aliceEnters_cmdMonitor⟩
    intro folded asked holder held
    have : folded = "bob" := by
      rw [Tables.asks, if_pos rfl, List.head?_cons, Option.elim_some, monitorTargets_bob] at asked
      rw [List.mem_singleton.mp asked]
      decide +kernel
    subst this
    have nobody : aliceEnters.server.findClient "bob" = none := by decide +kernel
    rw [nobody] at held
    cases held
  have told : machine.GuardedRun (fun node event => event.Settled node) bobEnters := by
    refine .step (e := .frame "2BB" (.uid "2BB" "2BB1" 0 "bob" "bob" "b.example" "*" "Bob")) watches ⟨by decide, ?_⟩ rfl
    intro id held
    have nobody : aliceWatches.server.findClient (aliceWatches.server.fold "bob") = none := by decide +kernel
    rw [nobody] at held
    cases held
  obtain ⟨online, heard, right⟩ := run_presence told 1 (by decide) "bob" (by decide +kernel)
  have isUser : (bobEnters.server.findRemoteUser "bob").isSome = true := by decide +kernel
  rw [heard, right.mpr (Or.inr (Option.isSome_iff_exists.mp isUser))]

end PresenceEvent

end Ferrixd
