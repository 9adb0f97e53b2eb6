import Ferrixd.Network.Announcements
import Ferrixd.Network.FanOut

/-! # What the commands of clients announce

A server tells its peers of each of its registered clients: that it is there, what changes about it, and that it
leaves.  What it says makes a peer that knew the client before know it afterwards. -/

namespace Ferrixd

/-! ## Clients as peers know them -/

/-- What the peers are to know of a registered client. -/
def ClientEntry.profile (entry : ClientEntry) (sid uid : String) : RemoteUser where
  serverSid := sid
  uid := uid
  nick := entry.nick
  user := entry.user
  host := entry.host
  account := entry.account
  realname := entry.realname
  away := entry.away
  oper := entry.oper
  invisible := entry.invisible
  bot := entry.bot

namespace Node

def profile (node : Node) (id : UInt64) : RemoteUser :=
  (node.server.entry id).profile node.server.info.sid (node.server.localUid id)

/-- A client that is connected and registered is a user, and nobody else is. -/
def user (node : Node) (id : UInt64) : Option RemoteUser :=
  if id ∈ node.connected ∧ (node.server.entry id).registered = true then some (node.profile id) else none

theorem user_congr {node node' : Node} {id : UInt64} (info : node'.server.info = node.server.info)
    (stays : id ∈ node'.connected ↔ id ∈ node.connected)
    (identity : (node'.server.entry id).identity = (node.server.entry id).identity) : node'.user id = node.user id := by
  simp only [ClientEntry.identity, ClientEntry.mk.injEq] at identity
  obtain ⟨nick, user, host, -, realname, registered, -, away, account, oper, invisible, -, bot, -⟩ := identity
  have uid : node'.server.localUid id = node.server.localUid id := by rw [Tables.localUid, Tables.localUid, info]
  have profile : node'.profile id = node.profile id := by
    rw [Node.profile, Node.profile, ClientEntry.profile, ClientEntry.profile, uid, info, nick, user, host, realname,
      away, account, oper, invisible, bot]
  simp only [Node.user, stays, registered, profile]

/-- What happens to channels, and to clients that are asked to go, changes no user. -/
theorem user_sameClients {node : Node} {s' : Server} (info : s'.info = node.server.info)
    (same : SameClients node.server.toTables s'.toTables) (id : UInt64) :
    (⟨s', node.connected⟩ : Node).user id = node.user id :=
  user_congr info .rfl (same.identity id)

end Node

/-! ## Announcements -/

/-- Every peer is told the same. -/
def Told (s s' : Server) (messages : List LinkMessage) : Prop :=
  ∀ far, s'.sentTo far = s.sentTo far ++ if far ∈ s.links then messages else []

namespace Told

variable {s s' : Server} {messages : List LinkMessage}

theorem nothing (same : s'.fx.frames = s.fx.frames) : Told s s' [] := by
  intro far
  rw [Server.sentTo_of_frames same]
  simp

theorem propagate {later : Server} (told : Told s later messages) (links : later.links = s.links)
    (message : LinkMessage) : Told s (later.propagateToLinks message) (messages ++ [message]) := by
  intro far
  rw [Server.sentTo_propagateToLinks, told, links, List.append_assoc]
  split <;> simp

theorem single {later : Server} (same : later.fx.frames = s.fx.frames) (links : later.links = s.links)
    (message : LinkMessage) : Told s (later.propagateToLinks message) [message] :=
  (nothing same).propagate links message

theorem later {final : Server} (told : Told s s' messages) (same : final.fx.frames = s'.fx.frames) :
    Told s final messages := by
  intro far
  rw [Server.sentTo_of_frames same, told]

end Told

/-- What one server announces about one of its clients, which may claim a nick. -/
structure Announces (node node' : Node) (id : UInt64) (claimed : Option String) (messages : List LinkMessage) :
    Prop where
  topology : node'.server.toTopology = node.server.toTopology
  registry : node'.server.toRegistry = node.server.toRegistry
  info : node'.server.info = node.server.info
  locals : LocalConsistent node'.server.toTables node'.connected
  told : Told node.server node'.server messages
  about : ∀ message ∈ messages, message.subject = some (node.server.localUid id)
  introduces : ∀ sid uid hops nick user host account realname,
    .uid sid uid hops nick user host account realname ∈ messages → sid = node.server.info.sid
  claims : ∀ message ∈ messages, ∀ nick, message.claim = some nick →
    node'.server.findClient (node.server.fold nick) = some id
  holds : ∀ folded other, node'.server.findClient folded = some other →
    node.server.findClient folded = some other ∨ other = id ∧ claimed = some folded
  changes : messages.foldlM heed (node.user id) = some (node'.user id)
  others : ∀ other, other ≠ id → node'.user other = node.user other

/-- The frames that change what is known of a user that is there. -/
def LinkMessage.revises : LinkMessage → Bool
  | .nick _ _ | .saway _ _ | .saccount _ _ | .ssetname _ _ | .schghost _ _ | .sumode _ _ => true
  | _ => false

theorem heed_of_revises {message : LinkMessage} (revises : message.revises = true) (known : Option RemoteUser) :
    heed known message = some (known.map message.revise) := by
  cases message <;> first | rfl | cases revises

namespace Announces

variable {node : Node} {id : UInt64} {s' : Server} {entry : ClientEntry}

/-- A change that the peers need not know of. -/
theorem silent (locals : LocalConsistent s'.toTables node.connected)
    (topology : s'.toTopology = node.server.toTopology) (registry : s'.toRegistry = node.server.toRegistry)
    (info : s'.info = node.server.info) (frames : s'.fx.frames = node.server.fx.frames)
    (clients : s'.clients = node.server.clients)
    (same : ∀ other, (⟨s', node.connected⟩ : Node).user other = node.user other) :
    Announces node ⟨s', node.connected⟩ id none [] where
  topology := topology
  registry := registry
  info := info
  locals := locals
  told := .nothing frames
  about := nofun
  introduces := nofun
  claims := nofun
  holds folded other found := .inl (by rwa [Tables.findClient, clients] at found)
  changes := by
    rw [List.foldlM_nil, same]
    rfl
  others other _ := same other

/-- Nothing happens. -/
theorem unchanged (locals : LocalConsistent node.server.toTables node.connected)
    (tables : s'.toTables = node.server.toTables) (frames : s'.fx.frames = node.server.fx.frames) :
    Announces node ⟨s', node.connected⟩ id none [] := by
  refine silent (locals.of_toTables tables) ?_ ?_ ?_ frames ?_ fun other => ?_
  · rw [tables]
  · rw [tables]
  · rw [tables]
  · rw [tables]
  · exact Node.user_sameClients (by rw [tables]) (by rw [tables]; exact .of_locals rfl) other

theorem user_reentered (tables : s'.toTables = { node.server.toTables with
    entries := node.server.entries.insert id entry }) (other : UInt64) :
    (⟨s', node.connected⟩ : Node).user other =
      if other = id then
        if id ∈ node.connected ∧ entry.registered = true then
          some (entry.profile node.server.info.sid (node.server.localUid id))
        else none
      else node.user other := by
  have entries := Tables.entry_insert node.server.toTables s'.toTables (by rw [tables]) other
  have uid : s'.localUid other = node.server.localUid other := by rw [Tables.localUid, Tables.localUid, tables]
  have info : s'.info = node.server.info := by rw [tables]
  simp only [Node.user, Node.profile]
  rw [entries, uid, info]
  by_cases same : other = id
  · subst same
    simp
  · simp only [if_neg same]

/-- A client that is yet to register changes its own data. -/
theorem unregistered (locals : LocalConsistent node.server.toTables node.connected)
    (tables : s'.toTables = { node.server.toTables with entries := node.server.entries.insert id entry })
    (frames : s'.fx.frames = node.server.fx.frames)
    (nick : SameNick node.server.fold (node.server.entry id).nick entry.nick)
    (channels : entry.channels = (node.server.entry id).channels)
    (before : (node.server.entry id).registered = false) (after : entry.registered = false) :
    Announces node ⟨s', node.connected⟩ id none [] := by
  have kept : LocalConsistent s'.toTables node.connected := by
    rw [tables]
    refine locals.reentered nick channels (fun registered => ?_) fun registered => ?_
    · rw [before] at registered
      cases registered
    · rw [after] at registered
      cases registered
  refine silent kept ?_ ?_ ?_ frames ?_ fun other => ?_
  · rw [tables]
  · rw [tables]
  · rw [tables]
  · rw [tables]
  · rw [user_reentered tables]
    split
    · rename_i same
      subst same
      simp [Node.user, before, after]
    · rfl

/-- A change of a client's own data is told as it is made. -/
theorem revised {message : LinkMessage} (locals : LocalConsistent node.server.toTables node.connected)
    (tables : s'.toTables = { node.server.toTables with entries := node.server.entries.insert id entry })
    (nick : SameNick node.server.fold (node.server.entry id).nick entry.nick)
    (channels : entry.channels = (node.server.entry id).channels)
    (registered : entry.registered = (node.server.entry id).registered) (isOpen : id ∈ node.connected)
    (told : Told node.server s' [message]) (revises : message.revises = true)
    (about : message.subject = some (node.server.localUid id))
    (claims : ∀ nick, message.claim = some nick → node.server.findClient (node.server.fold nick) = some id)
    (changes : entry.profile node.server.info.sid (node.server.localUid id) = message.revise (node.profile id)) :
    Announces node ⟨s', node.connected⟩ id none [message] := by
  have kept : LocalConsistent s'.toTables node.connected := by
    rw [tables]
    refine locals.reentered nick channels (fun isRegistered => registered.trans isRegistered) fun isRegistered => ?_
    exact locals.registered id isOpen (registered.symm.trans isRegistered)
  have user := user_reentered tables
  constructor
  case topology => rw [tables]
  case registry => rw [tables]
  case info => rw [tables]
  case locals => exact kept
  case told => exact told
  case about => exact fun other sent => by rwa [List.mem_singleton.mp sent]
  case introduces =>
    intro sid uid hops nick user host account realname sent
    rw [← List.mem_singleton.mp sent] at revises
    cases revises
  case claims =>
    intro other sent nick claim
    rw [List.mem_singleton.mp sent] at claim
    show s'.findClient _ = _
    rw [tables]
    exact claims nick claim
  case holds =>
    intro folded other found
    left
    rwa [show s'.findClient folded = node.server.findClient folded by rw [tables]; rfl] at found
  case changes =>
    rw [List.foldlM_cons, heed_of_revises revises, user, if_pos rfl, registered, changes, Node.user]
    split <;> rfl
  case others =>
    intro other different
    rw [user, if_neg different]

/-! ### Data of a client -/

section Commands

variable (locals : LocalConsistent node.server.toTables node.connected)
include locals

theorem cmdUser (id : UInt64) (params : List String) :
    Announces node ⟨node.server.cmdUser id params, node.connected⟩ id none [] := by
  rw [Server.cmdUser.eq_def]
  cases registered : (node.server.entry id).registered with
  | true => exact unchanged locals rfl rfl
  | false =>
    simp only [Bool.false_eq_true, if_false]
    split
    · exact unregistered locals rfl rfl (.of_eq rfl) rfl registered registered
    · exact unchanged locals rfl rfl

theorem cmdAway (isOpen : id ∈ node.connected) (params : List String) :
    ∃ messages, Announces node ⟨node.server.cmdAway id params, node.connected⟩ id none messages := by
  rw [Server.cmdAway.eq_def]
  extract_lets away recorded answered line
  clear_value away
  have tables : answered.toTables = { node.server.toTables with
      entries := node.server.entries.insert id { node.server.entry id with away } } := by
    cases away <;> rfl
  have frames : answered.fx.frames = node.server.fx.frames := by
    cases away <;> rfl
  have entry : answered.entry id = { node.server.entry id with away } := by
    rw [Tables.entry_insert node.server.toTables answered.toTables (by rw [tables]), if_pos rfl]
  rw [entry]
  cases registered : (node.server.entry id).registered with
  | false =>
    exact ⟨[], unregistered locals tables frames (.of_eq rfl) rfl registered registered⟩
  | true =>
    have uid : answered.localUid id = node.server.localUid id := by rw [tables]; rfl
    have told : Told node.server (answered.propagateToLinks (.saway (answered.localUid id) away))
        [.saway (node.server.localUid id) away] := by
      rw [uid]
      exact .single frames (by rw [tables]) _
    exact ⟨_, revised locals tables (.of_eq rfl) rfl rfl isOpen (told.later rfl) rfl rfl nofun rfl⟩

theorem cmdSetname (isOpen : id ∈ node.connected) (params : List String) :
    ∃ messages, Announces node ⟨node.server.cmdSetname id params, node.connected⟩ id none messages := by
  rw [Server.cmdSetname.eq_def]
  split
  · exact ⟨[], unchanged locals rfl rfl⟩
  · exact ⟨_, revised locals rfl (.of_eq rfl) rfl rfl isOpen (.single rfl rfl _) rfl rfl nofun rfl⟩

theorem cmdOper (isOpen : id ∈ node.connected) (params : List String) (crypto : Crypto) (opers : AccountStore)
    (operHosts : Table String (List String)) : ∃ messages,
    Announces node ⟨node.server.cmdOper id params crypto opers operHosts, node.connected⟩ id none messages := by
  rw [Server.cmdOper.eq_def]
  split
  · dsimp only
    split
    · exact ⟨[], unchanged locals rfl rfl⟩
    · split
      · exact ⟨[], unchanged locals rfl rfl⟩
      · exact ⟨_, revised locals rfl (.of_eq rfl) rfl rfl isOpen (.single rfl rfl _) rfl rfl nofun rfl⟩
  · exact ⟨[], unchanged locals rfl rfl⟩

/-- An account called `*` is told as none. -/
theorem saslSuccess (isOpen : id ∈ node.connected) {account : String} (proper : account ≠ "*") : ∃ messages,
    Announces node ⟨node.server.saslSuccess id account, node.connected⟩ id none messages := by
  refine ⟨_, revised locals rfl (.of_eq rfl) rfl rfl isOpen (.single rfl rfl _) rfl rfl nofun ?_⟩
  simp only [LinkMessage.revise, Option.getD_some, if_neg proper]
  rfl

/-- The host that an operator gives to a client is announced by the client's server. -/
theorem cmdChghost (id : UInt64) (params : List String) : ∃ target messages,
    Announces node ⟨node.server.cmdChghost id params, node.connected⟩ target none messages := by
  rw [Server.cmdChghost.eq_def]
  split
  · exact ⟨id, [], unchanged locals rfl rfl⟩
  · split
    · split
      · exact ⟨id, [], unchanged locals rfl rfl⟩
      · rename_i target found
        have isOpen := (locals.holds _ target found).1
        dsimp only
        split
        · exact ⟨target, _, revised locals rfl (.of_eq rfl) rfl rfl isOpen (.single rfl rfl _) rfl rfl nofun rfl⟩
        · exact ⟨target, _, revised locals rfl (.of_eq rfl) rfl rfl isOpen (.single rfl rfl _) rfl rfl nofun rfl⟩
    · exact ⟨id, [], unchanged locals rfl rfl⟩

end Commands

end Announces

/-! ## User modes -/

/-- Reading a list of changes from the front. -/
def umodesRead (flags : String) (user : RemoteUser) : RemoteUser × Bool :=
  flags.toList.foldl Server.umodeStep (user, true)

/-- What was recorded so far makes the profile of the client as it was that of the client as it is. -/
structure UserModeChange.Tells (state : UserModeChange) (before : ClientEntry) (sid uid : String) : Prop where
  reads : umodesRead state.changed.flags (before.profile sid uid) =
    (state.entry.profile sid uid, state.changed.sign.getD true)
  others : state.entry =
    { before with
      invisible := state.entry.invisible, wallops := state.entry.wallops, oper := state.entry.oper
      bot := state.entry.bot }

namespace UserModeChange

variable {state : UserModeChange} {before : ClientEntry} {sid uid : String}

/-- A letter is recorded behind its sign. -/
theorem umodesRead_push (changed : ModeAccum) {user known : RemoteUser} {adding : Bool} {letter : Char}
    (reads : umodesRead changed.flags user = (known, changed.sign.getD true)) :
    umodesRead (changed.push adding letter).flags user = Server.umodeStep (known, adding) letter := by
  rw [ModeAccum.push]
  by_cases same : changed.sign = some adding
  · rw [same, Option.getD_some] at reads
    simp only [if_pos same, umodesRead, String.toList_push, List.foldl_append, List.foldl_cons, List.foldl_nil]
    rw [← umodesRead, reads]
  · simp only [if_neg same, umodesRead, String.toList_push, List.foldl_append, List.foldl_cons, List.foldl_nil]
    rw [← umodesRead, reads]
    cases adding <;> rfl

theorem Tells.start (before : ClientEntry) (sid uid : String) :
    Tells { entry := before } before sid uid :=
  ⟨rfl, rfl⟩

theorem Tells.push (tells : state.Tells before sid uid) {entry : ClientEntry} {letter : Char} {adding : Bool}
    (same : Server.umodeStep (state.entry.profile sid uid, adding) letter = (entry.profile sid uid, adding))
    (others : entry = { state.entry with
      invisible := entry.invisible, wallops := entry.wallops, oper := entry.oper, bot := entry.bot }) :
    Tells { state with entry, changed := state.changed.push adding letter } before sid uid := by
  constructor
  · rw [umodesRead_push state.changed tells.reads, same]
    rfl
  · rw [others, tells.others]

theorem Tells.step (tells : state.Tells before sid uid) (c : Char) : (userModeStep state c).Tells before sid uid := by
  simp only [userModeStep]
  split
  · exact ⟨tells.reads, tells.others⟩
  split
  · exact ⟨tells.reads, tells.others⟩
  split
  · split
    · exact tells
    · exact tells.push rfl rfl
  split
  · split
    · exact tells
    · exact tells.push rfl rfl
  split
  · split
    · exact tells
    · exact tells.push rfl rfl
  split
  · split
    · rename_i removes
      simp only [Bool.and_eq_true, Bool.not_eq_true'] at removes
      exact tells.push rfl rfl
    · exact tells
  · exact ⟨tells.reads, tells.others⟩

/-- The change that is announced makes the old modes the new ones. -/
theorem tells (before : ClientEntry) (sid uid : String) (flags : List Char) :
    (flags.foldl userModeStep { entry := before }).Tells before sid uid :=
  foldl_invariant (I := fun state => state.Tells before sid uid) userModeStep flags
    (fun _ c _ told => told.step c) _ (.start before sid uid)

end UserModeChange

/-- The modes of a new client are announced as changes. -/
theorem umodesRead_umodeFlags (user : RemoteUser) (plain : user.oper = false ∧ user.invisible = false ∧ user.bot = false)
    (oper invisible bot : Bool) :
    (umodesRead ((umodeFlags oper invisible bot).getD "") user).1 = { user with oper, invisible, bot } := by
  obtain ⟨isOper, isInvisible, isBot⟩ := plain
  obtain ⟨serverSid, uid, nick, name, host, account, realname, away, _, _, _⟩ := user
  cases isOper
  cases isInvisible
  cases isBot
  cases oper <;> cases invisible <;> cases bot <;> rfl

/-! ## Nicks, registration and departure -/

namespace Server

/-- The frames that introduce a client. -/
def introduction (s : Server) (id : UInt64) : List LinkMessage :=
  let entry := s.entry id
  .uid s.info.sid (s.localUid id) 0 entry.nick entry.user entry.host (entry.account.getD "*") entry.realname ::
    ((umodeFlags entry.oper entry.invisible entry.bot).map fun flags => .sumode (s.localUid id) flags).toList

theorem introduceLocal_told (s : Server) (id : UInt64) : Told s (s.introduceLocal id) (s.introduction id) := by
  have introduced : Told s (s.propagateToLinks (.uid s.info.sid (s.localUid id) 0 (s.entry id).nick
      (s.entry id).user (s.entry id).host ((s.entry id).account.getD "*") (s.entry id).realname)) _ := .single rfl rfl _
  rw [introduceLocal, introduction]
  cases umodeFlags (s.entry id).oper (s.entry id).invisible (s.entry id).bot with
  | none => exact introduced
  | some flags => exact introduced.propagate rfl _

theorem introduction_subject (s : Server) (id : UInt64) (message : LinkMessage) (sent : message ∈ s.introduction id) :
    message.subject = some (s.localUid id) := by
  rcases List.mem_cons.mp sent with rfl | flags
  · rfl
  · obtain ⟨flags, -, rfl⟩ := Option.map_eq_some_iff.mp (Option.mem_toList.mp flags)
    rfl

theorem introduction_claim (s : Server) (id : UInt64) (message : LinkMessage) (sent : message ∈ s.introduction id)
    (nick : String) (claim : message.claim = some nick) : nick = (s.entry id).nick := by
  rcases List.mem_cons.mp sent with rfl | flags
  · cases claim
    rfl
  · obtain ⟨flags, -, rfl⟩ := Option.map_eq_some_iff.mp (Option.mem_toList.mp flags)
    cases claim

theorem introduction_uid (s : Server) (id : UInt64) {sid uid nick user host account realname : String} {hops : UInt64}
    (sent : .uid sid uid hops nick user host account realname ∈ s.introduction id) : sid = s.info.sid := by
  rcases List.mem_cons.mp sent with same | flags
  · cases same
    rfl
  · obtain ⟨flags, -, same⟩ := Option.map_eq_some_iff.mp (Option.mem_toList.mp flags)
    cases same

/-- What is introduced is the profile, if the client is not away and its account is not called `*`. -/
theorem introduction_heeded (s : Server) (id : UInt64) (present : (s.entry id).away = none)
    (proper : (s.entry id).account ≠ some "*") :
    (s.introduction id).foldlM heed none = some (some ((s.entry id).profile s.info.sid (s.localUid id))) := by
  have account : (if (s.entry id).account.getD "*" = "*" then none else some ((s.entry id).account.getD "*")) =
      (s.entry id).account := by
    cases same : (s.entry id).account with
    | none => rfl
    | some account =>
      have different : account ≠ "*" := fun star => proper (by rw [same, star])
      simp [different]
  have modes := umodesRead_umodeFlags (introduced s.info.sid (s.localUid id) (s.entry id).nick (s.entry id).user
    (s.entry id).host ((s.entry id).account.getD "*") (s.entry id).realname) ⟨rfl, rfl, rfl⟩ (s.entry id).oper
    (s.entry id).invisible (s.entry id).bot
  have profile : ({ introduced s.info.sid (s.localUid id) (s.entry id).nick (s.entry id).user (s.entry id).host
      ((s.entry id).account.getD "*") (s.entry id).realname with
      oper := (s.entry id).oper, invisible := (s.entry id).invisible, bot := (s.entry id).bot } : RemoteUser) =
      (s.entry id).profile s.info.sid (s.localUid id) := by
    rw [introduced, account, ClientEntry.profile, present]
  rw [profile] at modes
  rw [introduction, List.foldlM_cons, ← modes]
  cases umodeFlags (s.entry id).oper (s.entry id).invisible (s.entry id).bot <;> rfl

theorem disconnect_frames (s : Server) (id : UInt64) (reason : String) :
    (s.disconnect id reason).fx.frames = s.fx.frames := by
  have left : (if (s.entry id).registered then s.quitChannels id reason else s).fx.frames = s.fx.frames := by
    split
    · rw [quitChannels]
      refine (Silent.foldl_fst (fun state folded => ?_) _ (_, [id])).frames.trans (recordWhowas_frames _ _ _ _ _)
      rw [leaveOnQuit]
      dsimp only
      split
      · exact .reapChannel _ folded
      · exact (Silent.reapChannel _ folded).after ⟨rfl, rfl, rfl⟩
    · rfl
  have unwatched (names : List String) (later : Server) :
      (names.foldl (fun s folded => s.monitorUnwatch folded id) later).fx.frames = later.fx.frames := by
    refine foldl_invariant (I := fun s : Server => s.fx.frames = later.fx.frames) _ names ?_ later rfl
    intro s folded _ same
    rw [monitorUnwatch]
    split
    · exact same
    · dsimp only
      split <;> exact same
  have quiet (later : Server) : (if (s.entry id).registered && ((s.entry id).nick != "" && (s.entry id).nick != "*")
      then later.monitorOffline (s.entry id).nick else later).fx.frames = later.fx.frames := by
    split
    · exact monitorOffline_frames _ _
    · rfl
  have released (gone : Server) (named : Bool) :
      (if named then gone.releaseNick (gone.fold (s.entry id).nick) else gone).fx.frames = gone.fx.frames := by
    split <;> rfl
  rw [disconnect]
  exact (released _ _).trans ((unwatched _ _).trans ((quiet _).trans left))

end Server

namespace Announces

variable {node : Node} {id : UInt64} (locals : LocalConsistent node.server.toTables node.connected)
include locals

theorem userMode (isOpen : id ∈ node.connected) (target : String) (args : List String) :
    ∃ messages, Announces node ⟨node.server.userMode id target args, node.connected⟩ id none messages := by
  rw [Server.userMode.eq_def]
  split
  · split <;> exact ⟨[], unchanged locals rfl rfl⟩
  split
  · exact ⟨[], unchanged locals rfl rfl⟩
  · rename_i flags _
    extract_lets change recorded answered nick shown
    have tells := UserModeChange.tells (node.server.entry id) node.server.info.sid (node.server.localUid id) flags.toList
    have tables : answered.toTables = { node.server.toTables with
        entries := node.server.entries.insert id change.entry } := by
      simp only [answered]
      cases change.unknown <;> rfl
    have frames : answered.fx.frames = node.server.fx.frames := by
      simp only [answered]
      cases change.unknown <;> rfl
    have identity : SameNick node.server.fold (node.server.entry id).nick change.entry.nick ∧
        change.entry.channels = (node.server.entry id).channels ∧
        change.entry.registered = (node.server.entry id).registered := by
      rw [tells.others]
      exact ⟨.of_eq rfl, rfl, rfl⟩
    obtain ⟨sameNick, channels, registered⟩ := identity
    split
    · -- only a mode that was set already was given
      rename_i none
      have reads := congrArg Prod.fst tells.reads
      rw [show change.changed.flags = "" from none] at reads
      have kept : LocalConsistent answered.toTables node.connected := by
        rw [tables]
        refine locals.reentered sameNick channels (fun isRegistered => registered.trans isRegistered) fun isRegistered => ?_
        exact locals.registered id isOpen (registered.symm.trans isRegistered)
      refine ⟨[], silent kept (by rw [tables]) (by rw [tables]) (by rw [tables]) frames (by rw [tables]) fun other => ?_⟩
      rw [user_reentered tables]
      split
      · rename_i same
        subst same
        rw [Node.user, registered]
        split
        · exact congrArg some reads.symm
        · rfl
      · rfl
    · have uid : answered.localUid id = node.server.localUid id := by rw [Tables.localUid, Tables.localUid, tables]
      have told : Told node.server (shown.propagateToLinks (.sumode (answered.localUid id) change.changed.flags))
          [.sumode (node.server.localUid id) change.changed.flags] := by
        rw [uid]
        have links : answered.links = node.server.links := by rw [tables]
        exact .single frames links _
      have claimless : ∀ uid, (LinkMessage.sumode (node.server.localUid id) change.changed.flags).claim ≠ some uid :=
        fun uid => (Option.some_ne_none uid).symm
      exact ⟨_, revised locals tables sameNick channels registered isOpen told rfl rfl
        (fun uid claimed => absurd claimed (claimless uid)) (congrArg Prod.fst tells.reads).symm⟩

/-- A new connection is no user. -/
theorem connect (fresh : node.server.nextId ∉ node.connected) (host : String) :
    Announces node ⟨node.server.connect host, node.server.nextId :: node.connected⟩ node.server.nextId none [] := by
  have entry := Tables.entry_insert node.server.toTables (node.server.connect host).toTables rfl
  constructor
  case topology => rfl
  case registry => rfl
  case info => rfl
  case locals => exact locals.connect fresh host
  case told => exact .nothing rfl
  case about => exact nofun
  case introduces => exact nofun
  case claims => exact nofun
  case holds => exact fun folded other found => .inl found
  case changes =>
    rw [List.foldlM_nil, Node.user, Node.user, if_neg fun both => fresh both.1, entry]
    simp
  case others =>
    intro other different
    refine Node.user_congr rfl ?_ ?_
    · simp [different]
    · rw [entry, if_neg different]

/-- A registered client that leaves is withdrawn. -/
theorem closeConnection (isOpen : id ∈ node.connected) (reason : String) : ∃ messages,
    Announces node ⟨node.server.closeConnection id reason, node.connected.filter fun other => other != id⟩ id none
      messages := by
  have kept := locals.closeConnection isOpen reason
  have tables : (node.server.closeConnection id reason).toTables = (node.server.disconnect id reason).toTables := by
    rw [Server.closeConnection]
    split
    · rw [Server.disconnect_toTables, Server.disconnect_toTables]
      rfl
    · rfl
  have departed := node.server.disconnect_toTables id reason
  have entries : (node.server.closeConnection id reason).entries = node.server.entries := by rw [tables, departed]
  have told : Told node.server (node.server.closeConnection id reason)
      (if (node.server.entry id).registered then [.quit (node.server.localUid id) reason] else []) := by
    rw [Server.closeConnection]
    split
    · exact Told.later (.single rfl rfl _) (Server.disconnect_frames _ _ _)
    · exact .nothing (Server.disconnect_frames _ _ _)
  have gone (messages : List LinkMessage) (changes : messages.foldlM heed (node.user id) = some none)
      (told : Told node.server (node.server.closeConnection id reason) messages)
      (quits : ∀ message ∈ messages, message = .quit (node.server.localUid id) reason) :
      Announces node ⟨node.server.closeConnection id reason, node.connected.filter fun other => other != id⟩ id none
        messages := by
    constructor
    case topology => rw [tables, departed]
    case registry => rw [tables, departed]
    case info => rw [tables, departed]
    case locals => exact kept
    case told => exact told
    case about => exact fun message sent => by rw [quits message sent]; rfl
    case introduces => exact fun sid uid hops nick user host account realname sent => absurd (quits _ sent) (by simp)
    case claims => exact fun message sent nick claim => by rw [quits message sent] at claim; cases claim
    case holds =>
      intro folded other found
      left
      rw [tables, Tables.findClient, locals.lookup_disconnect isOpen] at found
      exact (Option.filter_eq_some_iff.mp found).1
    case changes =>
      rw [changes, Node.user, if_neg]
      simp
    case others =>
      intro other different
      refine Node.user_congr (by rw [tables, departed]) ?_ ?_
      · simp [different]
      · rw [Tables.entry, entries]
        rfl
  refine ⟨_, gone _ ?_ told ?_⟩
  · cases registered : (node.server.entry id).registered with
    | true => rfl
    | false => simp [Node.user, registered]
  · intro message sent
    split at sent
    · exact List.mem_singleton.mp sent
    · cases sent

/-- The first announcements of a client make it known as it is. -/
theorem completeRegistration (isOpen : id ∈ node.connected) (nicked : (node.server.entry id).nick ≠ "*")
    (fresh : (node.server.entry id).registered = false) (present : (node.server.entry id).away = none)
    (proper : (node.server.entry id).account ≠ some "*") (cloak : String) : ∃ messages,
    Announces node ⟨node.server.completeRegistration id cloak,
      if (node.server.matchesKline (node.server.entry id).realHostmask).isSome then
        node.connected.filter fun other => other != id
      else node.connected⟩ id none messages := by
  have kept := locals.completeRegistration isOpen nicked cloak
  rw [Server.completeRegistration] at kept ⊢
  cases banned : node.server.matchesKline (node.server.entry id).realHostmask with
  | some reason => exact closeConnection locals isOpen _
  | none =>
    simp only [banned, Option.isSome_none, Bool.false_eq_true, if_false] at kept ⊢
    generalize isRegistered : (node.server.modifyEntry id fun entry =>
      { entry with host := cloak, registered := true }) = registered at kept ⊢
    have modified : registered.toTables = { node.server.toTables with
        entries := node.server.entries.insert id { node.server.entry id with host := cloak, registered := true } } := by
      rw [← isRegistered]
      rfl
    have entry : registered.entry id = { node.server.entry id with host := cloak, registered := true } := by
      rw [Tables.entry_insert node.server.toTables registered.toTables (by rw [modified]), if_pos rfl]
    have uid : registered.localUid id = node.server.localUid id := by rw [Tables.localUid, Tables.localUid, modified]
    have frames : registered.fx.frames = node.server.fx.frames := by
      rw [← isRegistered]
      rfl
    generalize isWelcomed : (registered.introduceLocal id).monitorOnline (registered.entry id).nick
      (registered.entry id).hostmask = welcomed at kept ⊢
    have tables : welcomed.toTables = registered.toTables := by
      rw [← isWelcomed, Server.monitorOnline_toTables, Server.introduceLocal_toTables]
    have told : Told node.server welcomed (registered.introduction id) := by
      rw [← isWelcomed]
      refine Told.later (fun far => ?_) (Server.monitorOnline_frames _ _ _)
      rw [registered.introduceLocal_told id far, Server.sentTo_of_frames frames, modified]
    have user := user_reentered (tables.trans modified)
    refine ⟨registered.introduction id, ?_⟩
    constructor
    case topology => rw [tables, modified]
    case registry => rw [tables, modified]
    case info => rw [tables, modified]
    case locals => exact kept
    case told => exact told
    case about =>
      intro message sent
      rw [registered.introduction_subject id message sent, uid]
    case introduces =>
      intro sid uid hops nick user host account realname sent
      rw [registered.introduction_uid id sent, modified]
    case claims =>
      intro message sent nick claim
      rw [registered.introduction_claim id message sent nick claim, tables, entry, modified]
      exact (locals.occupies id isOpen nicked).1
    case holds =>
      intro folded other found
      left
      rwa [tables, modified] at found
    case changes =>
      rw [user, if_pos rfl, if_pos ⟨isOpen, rfl⟩, Node.user, if_neg fun both => by rw [fresh] at both; cases both.2]
      rw [registered.introduction_heeded id (by rw [entry]; exact present) (by rw [entry]; exact proper), entry, uid,
        modified]
    case others =>
      intro other different
      rw [user, if_neg different]

omit locals in
/-- A client has another nick. -/
theorem renicked {final : Server} {nick : String} (kept : LocalConsistent final.toTables node.connected)
    (topology : final.toTopology = node.server.toTopology) (registry : final.toRegistry = node.server.toRegistry)
    (info : final.info = node.server.info)
    (entries : final.entries = node.server.entries.insert id { node.server.entry id with nick })
    (own : final.findClient (node.server.fold nick) = some id)
    (holds : ∀ folded other, final.findClient folded = some other →
      node.server.findClient folded = some other ∨ other = id ∧ folded = node.server.fold nick)
    (told : Told node.server final
      (if (node.server.entry id).registered then [.nick (node.server.localUid id) nick] else [])) :
    Announces node ⟨final, node.connected⟩ id (some (node.server.fold nick))
      (if (node.server.entry id).registered then [.nick (node.server.localUid id) nick] else []) := by
  have entry := Tables.entry_insert node.server.toTables final.toTables entries
  have isNick (message : LinkMessage) (sent : message ∈ if (node.server.entry id).registered then
      [.nick (node.server.localUid id) nick] else []) : message = .nick (node.server.localUid id) nick := by
    split at sent
    · exact List.mem_singleton.mp sent
    · cases sent
  constructor
  case topology => exact topology
  case registry => exact registry
  case info => exact info
  case locals => exact kept
  case told => exact told
  case about => exact fun message sent => by rw [isNick message sent]; rfl
  case introduces => exact fun sid uid hops nick user host account realname sent => absurd (isNick _ sent) (by simp)
  case claims =>
    intro message sent claimed claim
    rw [isNick message sent] at claim
    cases claim
    exact own
  case holds =>
    intro folded other found
    rcases holds folded other found with before | ⟨same, isNick⟩
    · exact .inl before
    · exact .inr ⟨same, congrArg some isNick.symm⟩
  case changes =>
    have uid : final.localUid id = node.server.localUid id := by rw [Tables.localUid, Tables.localUid, info]
    simp only [Node.user, Node.profile]
    rw [entry, if_pos rfl, info, uid]
    cases (node.server.entry id).registered with
    | false => simp
    | true => split <;> rfl
  case others =>
    intro other different
    refine Node.user_congr info .rfl ?_
    rw [entry, if_neg different]

/-- A client that takes another nick claims it, if the server knows nobody else who has it. -/
theorem cmdNick (isOpen : id ∈ node.connected) (nick : String) : ∃ claimed messages,
    Announces node ⟨node.server.cmdNick id nick, node.connected⟩ id claimed messages ∧
      ∀ folded, claimed = some folded → folded = node.server.fold nick ∧ node.server.findClient folded = none ∧
        folded ∉ node.server.remoteUsers := by
  rw [Server.cmdNick]
  split
  · exact ⟨none, [], unchanged locals rfl rfl, by simp⟩
  rename_i valid
  obtain ⟨proper, nonempty⟩ := isValidNick_proper (by simpa using valid)
  extract_lets folded current currentFolded registered renamed
  split
  · rename_i own
    obtain ⟨nameless, sameFold⟩ := own
    have nicked : (node.server.entry id).nick ≠ "*" := by
      intro star
      exact nameless (if_pos star)
    have isFolded : currentFolded = node.server.fold (node.server.entry id).nick := if_neg nicked
    rw [isFolded] at sameFold
    split
    · exact ⟨none, [], unchanged locals rfl rfl, by simp⟩
    · -- only the case changes
      have sameNick : SameNick node.server.fold (node.server.entry id).nick nick :=
        ⟨sameFold, iff_of_false proper nicked, fun empty => absurd empty nonempty⟩
      cases isRegistered : (node.server.entry id).registered with
      | false =>
        rw [show registered = false from isRegistered]
        exact ⟨none, [], unregistered locals rfl rfl sameNick rfl isRegistered isRegistered, by simp⟩
      | true =>
        rw [show registered = true from isRegistered, if_pos rfl]
        have quiet := Server.broadcastNickChange_quiet renamed id current nick
        have uid : (renamed.broadcastNickChange id current nick).localUid id = node.server.localUid id := by
          rw [Tables.localUid, quiet.1]
          rfl
        have links : (renamed.broadcastNickChange id current nick).links = node.server.links := by
          rw [quiet.1]
          rfl
        have told : Told node.server ((renamed.broadcastNickChange id current nick).propagateNickChange id nick)
            [.nick (node.server.localUid id) nick] := by
          rw [Server.propagateNickChange, uid]
          exact .single quiet.2 links _
        have tables : ((renamed.broadcastNickChange id current nick).propagateNickChange id nick).toTables =
            { node.server.toTables with
              entries := node.server.entries.insert id { node.server.entry id with nick } } := by
          rw [Server.propagateNickChange_toTables, quiet.1]
          rfl
        refine ⟨none, _, revised locals tables sameNick rfl rfl isOpen told rfl rfl ?_ rfl, by simp⟩
        rintro _ ⟨⟩
        rw [show node.server.fold nick = node.server.fold (node.server.entry id).nick from sameFold]
        exact (locals.occupies id isOpen nicked).1
  · rename_i other
    obtain refused | ⟨own, -⟩ | ⟨free, claimed⟩ := node.server.claimNick_cases folded id
    · rw [refused]
      exact ⟨none, [], unchanged locals rfl rfl, by simp⟩
    · -- the nick that a client holds is its own, up to case
      obtain ⟨-, nicked, here⟩ := locals.holds folded id own
      have isFolded : currentFolded = node.server.fold (node.server.entry id).nick := if_neg nicked
      refine absurd ⟨fun empty => locals.nonempty id isOpen ?_, (isFolded.trans here).symm⟩ other
      rw [isFolded] at empty
      exact (fold_eq_empty _ _).mp empty
    · simp only [claimed]
      have isFolded : currentFolded = if (node.server.entry id).nick = "*" then "" else
          node.server.fold (node.server.entry id).nick := rfl
      have unnamed : currentFolded = "" ↔ (node.server.entry id).nick = "*" := by
        rw [isFolded]
        split
        · rename_i star
          exact iff_of_true rfl star
        · rename_i nicked
          exact iff_of_false (fun empty => locals.nonempty id isOpen ((fold_eq_empty _ _).mp empty)) nicked
      generalize isTaken : ((if currentFolded = "" then
          ({ node.server with
            clients := node.server.clients.insert folded id, byId := node.server.byId.insert id } : Server)
        else ({ node.server with
            clients := node.server.clients.insert folded id, byId := node.server.byId.insert id } : Server).releaseNick
          currentFolded).setNick id nick) = taken
      have topology : taken.toTopology = node.server.toTopology ∧ taken.toRegistry = node.server.toRegistry ∧
          taken.info = node.server.info ∧ taken.channels = node.server.channels ∧
          taken.fx = node.server.fx ∧ taken.byId = node.server.byId.insert id ∧
          taken.entries = node.server.entries.insert id { node.server.entry id with nick } := by
        rw [← isTaken]
        split <;> exact ⟨rfl, rfl, rfl, rfl, rfl, rfl, rfl⟩
      obtain ⟨topology, registry, info, channels, fx, byId, entries⟩ := topology
      have clients : taken.clients = if (node.server.entry id).nick = "*" then node.server.clients.insert folded id
          else (node.server.clients.insert folded id).erase (node.server.fold (node.server.entry id).nick) := by
        rw [← isTaken]
        by_cases star : (node.server.entry id).nick = "*"
        · rw [if_pos (unnamed.mpr star), if_pos star]
          rfl
        · rw [if_neg fun empty => star (unnamed.mp empty), if_neg star, isFolded, if_neg star]
          rfl
      have kept := locals.renicked proper nonempty free info entries byId channels clients isOpen
      have lookup := locals.lookup_renicked free clients isOpen
      have held (final : Server) (tables : final.toTables = taken.toTables) (told : Told node.server final
          (if (node.server.entry id).registered then [.nick (node.server.localUid id) nick] else [])) :
          ∃ claimed messages, Announces node ⟨final, node.connected⟩ id claimed messages ∧
            ∀ folded, claimed = some folded → folded = node.server.fold nick ∧ node.server.findClient folded = none ∧
              folded ∉ node.server.remoteUsers := by
        refine ⟨some folded, _, renicked (kept.of_toTables tables) ?_ ?_ ?_ ?_ ?_ ?_ told, ?_⟩
        · rw [tables, topology]
        · rw [tables, registry]
        · rw [tables, info]
        · rw [tables, entries]
        · rw [tables, Tables.findClient, lookup, if_pos rfl]
        · intro place other found
          rw [tables, Tables.findClient, lookup] at found
          split at found
          · rename_i here
            exact .inr ⟨(Option.some.inj found).symm, here⟩
          · split at found
            · cases found
            · exact .inl found
        · rintro _ ⟨⟩
          refine ⟨rfl, free, fun remote => ?_⟩
          rw [Server.claimNick, if_pos remote] at claimed
          cases congrArg Prod.snd claimed
      cases isRegistered : (node.server.entry id).registered with
      | false =>
        rw [show registered = false from isRegistered]
        refine held taken rfl ?_
        rw [isRegistered]
        exact .nothing (by rw [fx])
      | true =>
        rw [show registered = true from isRegistered, if_pos rfl]
        refine held _ ?_ ?_
        · rw [Server.monitorOnline_toTables, Server.monitorOffline_toTables, Server.propagateNickChange_toTables,
            Server.broadcastNickChange_toTables, Server.recordWhowas_toTables]
        · rw [isRegistered, if_pos rfl]
          generalize isAnnounced : (taken.recordWhowas current (taken.entry id).user (taken.entry id).host
            (taken.entry id).realname).broadcastNickChange id current nick = announced
          have tables : announced.toTables = taken.toTables := by
            rw [← isAnnounced, Server.broadcastNickChange_toTables, Server.recordWhowas_toTables]
          have frames : announced.fx.frames = node.server.fx.frames := by
            rw [← isAnnounced, Server.broadcastNickChange_frames, Server.recordWhowas_frames, fx]
          have uid : announced.localUid id = node.server.localUid id := by
            rw [Tables.localUid, Tables.localUid, tables, info]
          have links : announced.links = node.server.links := by rw [tables, topology]
          have told : Told node.server (announced.propagateNickChange id nick) [.nick (node.server.localUid id) nick] := by
            rw [Server.propagateNickChange, uid]
            exact .single frames links _
          refine told.later ?_
          rw [Server.monitorOnline_frames, Server.monitorOffline_frames]

end Announces

/-! ## Other commands -/

/-- A kill is queued for the peer that leads to its victim. -/
def Tables.KillsTowards (t : Tables) (peerSid : String) (message : LinkMessage) : Prop :=
  ∃ folded user reason, t.remoteUsers.lookup folded = some user ∧ t.routeFor user.serverSid = some peerSid ∧
    message = .kill user.uid reason

/-- A step that changes no user and announces none: what it sends is about other things, or asks for somebody's
removal. -/
structure Aside (node node' : Node) : Prop where
  rooms : RoomsOnly node.server.toTables node'.server.toTables
  locals : LocalConsistent node'.server.toTables node'.connected
  connected : node'.connected = node.connected
  sent : ∃ sent, node'.server.fx.frames = node.server.fx.frames ++ sent ∧
    ∀ frame ∈ sent, frame.2.neutral = true ∨ node.server.KillsTowards frame.1 frame.2

namespace RoomsOnly

variable (s : Server)

theorem beginJoin (folded name : String) : RoomsOnly s.toTables (s.beginJoin folded name).1.toTables := by
  rw [Server.beginJoin]
  split <;> exact rooms s.toTables _

theorem endJoin (folded : String) : RoomsOnly s.toTables (s.endJoin folded).toTables := by
  rw [Server.endJoin_toTables]
  exact rooms s.toTables _

theorem enterChannel (id : UInt64) (folded : String) (channel : ChannelEntry) (created : Bool) :
    RoomsOnly s.toTables (s.enterChannel id folded channel created).toTables := by
  rw [Server.enterChannel_toTables]
  have entered : SameClients s.toTables { s.toTables with entries := s.entries.insert id { s.entry id with
      channels := (s.entry id).channels.insert folded } } := .insert rfl
  exact ⟨rfl, rfl, rfl, entered.trans (.of_locals rfl)⟩

theorem joinOne (id : UInt64) (name : String) (key : Option String) :
    RoomsOnly s.toTables (s.joinOne id name key).toTables := by
  rw [Server.joinOne]
  split
  · exact of_eq rfl
  dsimp only
  split
  · exact of_eq rfl
  split
  · exact of_eq rfl
  have begun := beginJoin s (s.fold name) name
  generalize s.beginJoin (s.fold name) name = joining at begun
  obtain ⟨later, created⟩ := joining
  dsimp only at begun ⊢
  split
  · exact begun
  · split
    · exact begun.trans (endJoin (later.numeric id _ _ _) _)
    · refine begun.trans (.trans ?_ (endJoin _ _))
      split
      · exact enterChannel later id _ _ created
      · refine RoomsOnly.trans ?_ (enterChannel _ id _ _ created)
        exact rooms later.toTables _

theorem partOne (id : UInt64) (name : String) (reason : Option String) :
    RoomsOnly s.toTables (s.partOne id name reason).toTables := by
  obtain same | parted := s.partOne_cases id name reason
  · exact of_eq same
  · rw [parted]
    exact ⟨rfl, rfl, rfl, .partedLocal _ _ _⟩

theorem kickOne (id : UInt64) (chan targetNick : String) (reason : Option String) :
    RoomsOnly s.toTables (s.kickOne id chan targetNick reason).toTables := by
  obtain same | ⟨other, -, kicked⟩ | ⟨user, -, kicked⟩ := s.kickOne_cases id chan targetNick reason
  · exact of_eq same
  · rw [kicked]
    exact ⟨rfl, rfl, rfl, .partedLocal _ _ _⟩
  · rw [kicked]
    exact rooms s.toTables _

theorem cmdRename (id : UInt64) (old newName reason : String) :
    RoomsOnly s.toTables (s.cmdRename id old newName reason).toTables := by
  obtain same | ⟨-, -, moved, renamed, same⟩ := s.cmdRename_cases id old newName reason
  · exact of_eq same
  · obtain ⟨⟨topology, registry, info⟩, -⟩ := Server.renameChannel_ok renamed
    rw [same]
    exact ⟨topology, registry, info, .renamedChannel renamed⟩

end RoomsOnly

namespace Sends

variable {s : Server}

/-- What is announced to every peer. -/
theorem propagate {later : Server} {kind : LinkMessage → Prop} {message : LinkMessage}
    (frames : later.fx.frames = s.fx.frames) (holds : kind message) : Sends s (later.propagateToLinks message) kind := by
  refine ⟨_, congrArg (· ++ _) frames, fun frame sent => ?_⟩
  obtain ⟨sid, -, rfl⟩ := List.mem_map.mp sent
  exact holds

variable (s)

theorem enterChannel (id : UInt64) (folded : String) (channel : ChannelEntry) (created : Bool) :
    Sends s (s.enterChannel id folded channel created) fun frame => frame.neutral = true := by
  have names (later : Server) (channel : ChannelEntry) : (later.sendNames id channel).fx.frames = later.fx.frames := by
    refine foldl_invariant (I := fun s : Server => s.fx.frames = later.fx.frames) _ _ ?_ later rfl
    exact fun _ _ _ same => same
  have topic (later : Server) (channel : ChannelEntry) :
      (later.sendTopicOnJoin id channel).fx.frames = later.fx.frames := by
    rw [Server.sendTopicOnJoin]
    split <;> rfl
  simp only [Server.enterChannel, Server.propagateSjoin]
  refine .propagate ?_ rfl
  split
  · exact topic _ _
  · exact (names _ _).trans (topic _ _)

theorem joinOne (id : UInt64) (name : String) (key : Option String) :
    Sends s (s.joinOne id name key) fun frame => frame.neutral = true := by
  rw [Server.joinOne]
  split
  · exact .of_frames rfl
  dsimp only
  split
  · exact .of_frames rfl
  split
  · exact .of_frames rfl
  have begun := (Silent.beginJoin s (s.fold name) name).frames
  generalize s.beginJoin (s.fold name) name = joining at begun
  obtain ⟨later, created⟩ := joining
  dsimp only at begun ⊢
  split
  · exact .of_frames begun
  · split
    · exact .of_frames ((Server.endJoin_frames _ _).trans begun)
    · refine .trans ?_ (.of_frames (Server.endJoin_frames _ _))
      refine Sends.trans (.of_frames begun) ?_
      split
      · exact .enterChannel later id _ _ created
      · refine Sends.trans ?_ (enterChannel _ id _ _ created)
        exact .of_frames rfl

theorem partOne (id : UInt64) (name : String) (reason : Option String) :
    Sends s (s.partOne id name reason) fun frame => frame.neutral = true := by
  rw [Server.partOne]
  dsimp only
  split
  · exact .of_frames rfl
  · split
    · exact .of_frames rfl
    · exact .trans (.propagate rfl rfl) (.of_frames (Server.reapChannel_frames _ _))

theorem kickOne (id : UInt64) (chan targetNick : String) (reason : Option String) :
    Sends s (s.kickOne id chan targetNick reason) fun frame => frame.neutral = true := by
  have expelled (folded : String) (channel : ChannelEntry) (target : UInt64 ⊕ RemoteUser) (reason : String) :
      Sends s (s.expel id folded channel target reason) fun frame => frame.neutral = true := by
    simp only [Server.expel]
    cases target with
    | inl other => exact .propagate (Server.reapChannel_frames _ _) rfl
    | inr user => exact .propagate (Server.reapChannel_frames _ _) rfl
  rw [Server.kickOne]
  dsimp only
  cases s.findChannel (s.fold chan) with
  | none => exact .of_frames rfl
  | some channel =>
    dsimp only
    cases s.findClient (s.fold targetNick) with
    | some other =>
      dsimp only
      split
      · exact .of_frames rfl
      · split
        · exact .of_frames rfl
        · split
          · exact .of_frames rfl
          · exact expelled _ _ _ _
    | none =>
      cases s.findRemoteUser (s.fold targetNick) with
      | none => exact .of_frames rfl
      | some user =>
        simp only [Option.map_some]
        split
        · exact .of_frames rfl
        · split
          · exact .of_frames rfl
          · split
            · exact .of_frames rfl
            · exact expelled _ _ _ _

theorem cmdRename (id : UInt64) (old newName reason : String) :
    Sends s (s.cmdRename id old newName reason) fun frame => frame.neutral = true := by
  have failed (code : String) (context : List String) (text : String) :
      Sends s (s.fail id "RENAME" code context text) fun frame => frame.neutral = true := by
    rw [Server.fail]
    split <;> exact .of_frames rfl
  rw [Server.cmdRename]
  split
  · exact failed _ _ _
  dsimp only
  split
  · exact .of_frames rfl
  split
  · exact .of_frames rfl
  split
  · exact .of_frames rfl
  split
  · rename_i moved
    exact .propagate ((Silent.broadcastRename _ _ _ _ _).frames.trans (Silent.renameChannel moved).frames) rfl
  · exact failed _ _ _
  · exact .of_frames rfl

end Sends

namespace Aside

variable {node : Node} {s' : Server} (locals : LocalConsistent node.server.toTables node.connected)

/-- What is about channels and messages. -/
theorem of_rooms (rooms : RoomsOnly node.server.toTables s'.toTables) (kept : LocalConsistent s'.toTables node.connected)
    (sends : Sends node.server s' fun frame => frame.neutral = true) : Aside node ⟨s', node.connected⟩ := by
  obtain ⟨sent, frames, neutral⟩ := sends
  exact ⟨rooms, kept, rfl, sent, frames, fun frame queued => .inl (neutral frame queued)⟩

include locals

theorem say (id : UInt64) (hooks : MessageHooks) (params : List String) (notice : Bool) (tags : Option String) :
    Aside node ⟨node.server.say id hooks params notice tags, node.connected⟩ := by
  have tables := node.server.say_toTables id hooks params notice tags
  refine of_rooms (.of_eq tables) (locals.of_toTables tables) ?_
  obtain ⟨sent, frames, source⟩ := node.server.cmdMessage_sends id hooks params notice tags
  refine ⟨sent, (Bridge.post_frames id _ _).2.trans frames, fun frame queued => ?_⟩
  have isMessage := source frame queued
  obtain ⟨peerSid, message⟩ := frame
  cases message <;> first | rfl | cases isMessage

/-! ### Kills -/

/-- What the targets that were seen so far came to. -/
structure Killed (node : Node) (later : Server) : Prop where
  rooms : RoomsOnly node.server.toTables later.toTables
  undisturbed : Undisturbed node.server.toTables later.toTables
  sent : ∃ sent, later.fx.frames = node.server.fx.frames ++ sent ∧
    ∀ frame ∈ sent, node.server.KillsTowards frame.1 frame.2

omit locals in
theorem Killed.after {later final : Server} (killed : Killed node later) (rooms : RoomsOnly later.toTables final.toTables)
    (undisturbed : Undisturbed later.toTables final.toTables) {sent : List (String × LinkMessage)}
    (frames : final.fx.frames = later.fx.frames ++ sent)
    (kills : ∀ frame ∈ sent, later.KillsTowards frame.1 frame.2) : Killed node final := by
  refine ⟨killed.rooms.trans rooms, killed.undisturbed.trans undisturbed, ?_⟩
  obtain ⟨before, already, kind⟩ := killed.sent
  refine ⟨before ++ sent, by rw [frames, already, List.append_assoc], fun frame queued => ?_⟩
  rcases List.mem_append.mp queued with queued | queued
  · exact kind frame queued
  · obtain ⟨folded, user, reason, stored, route, same⟩ := kills frame queued
    have topology := killed.rooms.topology
    have registry := killed.rooms.registry
    refine ⟨folded, user, reason, ?_, ?_, same⟩
    · rwa [registry] at stored
    · rwa [Tables.routeFor, topology] at route

omit locals in
theorem Killed.killTarget {later : Server} (killed : Killed node later) (id : UInt64) (reason target : String) :
    Killed node (Server.killTarget id reason later target) := by
  rw [Server.killTarget]
  split
  · exact killed.after (.of_eq rfl) (.of_eq rfl) (List.append_nil _).symm nofun
  dsimp only
  split
  · exact killed.after ⟨rfl, rfl, rfl, .killed _ _ _⟩ (.killed _ _ _) (List.append_nil _).symm nofun
  split
  · rename_i user found
    have tables := Server.sendTowards_toTables later user.serverSid
      (.kill user.uid ("Killed (" ++ (later.entry id).nick ++ ": " ++ reason ++ ")"))
    have queued : ∃ sent, (later.sendTowards user.serverSid
        (.kill user.uid ("Killed (" ++ (later.entry id).nick ++ ": " ++ reason ++ ")"))).fx.frames =
          later.fx.frames ++ sent ∧ ∀ frame ∈ sent, later.KillsTowards frame.1 frame.2 := by
      rw [Server.sendTowards]
      cases route : later.routeFor user.serverSid with
      | none => exact ⟨[], (List.append_nil _).symm, nofun⟩
      | some peer =>
        dsimp only
        rw [Server.sendToLink]
        split
        · refine ⟨_, rfl, fun frame single => ?_⟩
          rw [List.mem_singleton.mp single]
          exact ⟨later.fold target, user, _, found, route, rfl⟩
        · exact ⟨[], (List.append_nil _).symm, nofun⟩
    obtain ⟨sent, frames, kills⟩ := queued
    exact killed.after (.of_eq tables) (.of_eq tables) frames kills
  · exact killed.after (.of_eq rfl) (.of_eq rfl) (List.append_nil _).symm nofun

theorem cmdKill (id : UInt64) (params : List String) :
    Aside node ⟨node.server.cmdKill id params, node.connected⟩ := by
  rw [Server.cmdKill.eq_def]
  split
  · exact of_rooms (.of_eq rfl) (locals.of_toTables rfl) (.of_frames rfl)
  split
  · exact of_rooms (.of_eq rfl) (locals.of_toTables rfl) (.of_frames rfl)
  · rename_i targets rest
    have start : Killed node node.server := ⟨.of_eq rfl, .of_eq rfl, [], (List.append_nil _).symm, nofun⟩
    have killed := foldl_invariant (I := Killed node) (Server.killTarget id (rest.headD "Killed"))
      ((targets.splitOn ",").filter fun target => target ≠ "")
      (fun _ target _ killed => killed.killTarget id _ target) node.server start
    obtain ⟨sent, frames, kills⟩ := killed.sent
    exact ⟨killed.rooms, locals.undisturbed killed.undisturbed, rfl, sent, frames,
      fun frame queued => .inr (kills frame queued)⟩

end Aside

/-! ## Calls -/

/-- What clients and operators make a server do. -/
inductive ClientCall where
  | connect (host : String)
  | cmdUser (id : UInt64) (params : List String)
  | cmdNick (id : UInt64) (nick : String)
  | completeRegistration (id : UInt64) (cloak : String)
  | cmdAway (id : UInt64) (params : List String)
  | cmdSetname (id : UInt64) (params : List String)
  | userMode (id : UInt64) (target : String) (args : List String)
  | cmdOper (id : UInt64) (params : List String) (crypto : Crypto) (opers : AccountStore)
      (operHosts : Table String (List String))
  | cmdChghost (id : UInt64) (params : List String)
  | saslSuccess (id : UInt64) (account : String)
  | cmdKill (id : UInt64) (params : List String)
  | joinOne (id : UInt64) (name : String) (key : Option String)
  | partOne (id : UInt64) (name : String) (reason : Option String)
  | kickOne (id : UInt64) (chan targetNick : String) (reason : Option String)
  | cmdRename (id : UInt64) (old newName reason : String)
  | say (id : UInt64) (hooks : MessageHooks) (params : List String) (notice : Bool) (tags : Option String)
  | closeConnection (id : UInt64) (reason : String)

namespace ClientCall

/-- Only open connections issue commands, those that need it after registration, and nobody registers twice.  The
counter of ids does not come round to one that is in use. -/
def Performs (node node' : Node) : ClientCall → Prop
  | connect host => node.server.nextId ∉ node.connected ∧
      node' = ⟨node.server.connect host, node.server.nextId :: node.connected⟩
  | cmdUser id params => node' = ⟨node.server.cmdUser id params, node.connected⟩
  | cmdNick id nick => id ∈ node.connected ∧ node' = ⟨node.server.cmdNick id nick, node.connected⟩
  | completeRegistration id cloak => id ∈ node.connected ∧ (node.server.entry id).nick ≠ "*" ∧
      (node.server.entry id).registered = false ∧
      node' = ⟨node.server.completeRegistration id cloak,
        if (node.server.matchesKline (node.server.entry id).realHostmask).isSome then
          node.connected.filter fun other => other != id
        else node.connected⟩
  | cmdAway id params => id ∈ node.connected ∧ node' = ⟨node.server.cmdAway id params, node.connected⟩
  | cmdSetname id params => id ∈ node.connected ∧ node' = ⟨node.server.cmdSetname id params, node.connected⟩
  | userMode id target args => id ∈ node.connected ∧ node' = ⟨node.server.userMode id target args, node.connected⟩
  | cmdOper id params crypto opers operHosts => id ∈ node.connected ∧
      node' = ⟨node.server.cmdOper id params crypto opers operHosts, node.connected⟩
  | cmdChghost id params => node' = ⟨node.server.cmdChghost id params, node.connected⟩
  | saslSuccess id account => id ∈ node.connected ∧ node' = ⟨node.server.saslSuccess id account, node.connected⟩
  | cmdKill id params => node' = ⟨node.server.cmdKill id params, node.connected⟩
  | joinOne id name key => id ∈ node.connected ∧ (node.server.entry id).registered = true ∧
      node' = ⟨node.server.joinOne id name key, node.connected⟩
  | partOne id name reason => node' = ⟨node.server.partOne id name reason, node.connected⟩
  | kickOne id chan targetNick reason => node' = ⟨node.server.kickOne id chan targetNick reason, node.connected⟩
  | cmdRename id old newName reason => node' = ⟨node.server.cmdRename id old newName reason, node.connected⟩
  | say id hooks params notice tags => node' = ⟨node.server.say id hooks params notice tags, node.connected⟩
  | closeConnection id reason => id ∈ node.connected ∧
      node' = ⟨node.server.closeConnection id reason, node.connected.filter fun other => other != id⟩

end ClientCall

end Ferrixd
