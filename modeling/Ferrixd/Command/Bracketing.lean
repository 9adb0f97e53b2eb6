import Ferrixd.Command.Multiline
import Ferrixd.Invariant.Clients

/-! # Who receives a multiline batch

The frames of a batch and its lines choose their recipients apart from each other, and between them plugins may
take somebody out of a channel.  A recipient gets both, or neither, exactly where all the choices agree. -/

namespace Ferrixd

open Protocol

/-! ## What one client receives -/

/-- The events that a client receives among what is sent. -/
def received (recipient : UInt64) (out : List Outgoing) : List Event :=
  out.filterMap fun
    | .event other event => if other = recipient then some event else none
    | _ => none

theorem received_append (recipient : UInt64) (out later : List Outgoing) :
    received recipient (out ++ later) = received recipient out ++ received recipient later :=
  List.filterMap_append

@[simp] theorem received_nil (recipient : UInt64) : received recipient [] = [] := rfl

theorem received_event (recipient other : UInt64) (event : Event) :
    received recipient [.event other event] = if other = recipient then [event] else [] := by
  rw [received]
  by_cases same : other = recipient
  · rw [List.filterMap_cons_some (b := event) (by simp [same]), if_pos same, List.filterMap_nil]
  · rw [List.filterMap_cons_none (by simp [same]), if_neg same, List.filterMap_nil]

@[simp] theorem received_unlessNotice (recipient : UInt64) (notice : Bool) (code : Nat) (params : List String)
    (text : String) : received recipient (unlessNotice notice (.numeric code params text)) = [] := by
  cases notice <;> rfl

@[simp] theorem received_unlessNotice_fail (recipient : UInt64) (notice : Bool) (command code : String)
    (context : List String) (text : String) :
    received recipient (unlessNotice notice (.fail command code context text)) = [] := by
  cases notice <;> rfl

@[simp] theorem received_away (recipient : UInt64) (notice : Bool) (away : Option String) (nick : String) :
    received recipient (away.elim [] fun away => unlessNotice notice (.numeric rplAway [nick] away)) = [] := by
  cases away with
  | none => rfl
  | some away => exact received_unlessNotice recipient notice rplAway [nick] away

/-- What plugins mail is none of the events of a message. -/
@[simp] theorem received_carryOut (s : Server) (recipient : UInt64) (actions : List Plugin.Action) :
    received recipient (s.carryOut actions).2 = [] := by
  rw [Server.carryOut, received, List.filterMap_map]
  exact List.filterMap_eq_nil_iff.mpr fun _ _ => rfl

theorem received_echo (t : Tables) (recipient id : UInt64) (event : Event) :
    received recipient (t.echo id event) =
      List.replicate (recipient = id && (t.entry id).caps.has .echoMessage).toNat event := by
  rw [Tables.echo]
  cases (t.entry id).caps.has .echoMessage with
  | false => simp
  | true =>
    rw [if_pos rfl, received_event]
    by_cases same : recipient = id
    · simp [same]
    · simp [same, Ne.symm same]

theorem received_entries (recipient : UInt64) (event : Event) (keep : UInt64 → MemberPrefix → Bool)
    (members : List (Sigma fun _ : UInt64 => MemberPrefix)) (nodup : members.NodupKeys) :
    received recipient ((members.filter fun member => keep member.1 member.2).map fun member => .event member.1 event) =
      List.replicate ((members.dlookup recipient).any (keep recipient)).toNat event := by
  induction members with
  | nil => rfl
  | cons member members ih =>
    obtain ⟨fresh, rest⟩ := List.nodupKeys_cons.mp nodup
    obtain ⟨id, status⟩ := member
    have split : received recipient ((((⟨id, status⟩ : Sigma fun _ => MemberPrefix) :: members).filter
          fun member => keep member.1 member.2).map fun member => .event member.1 event) =
        received recipient (if keep id status then [.event id event] else []) ++
          List.replicate ((members.dlookup recipient).any (keep recipient)).toNat event := by
      rw [← ih rest, ← received_append, List.filter_cons]
      cases keep id status <;> rfl
    rw [split]
    by_cases same : id = recipient
    · -- no other entry has the key
      subst same
      rw [List.dlookup_cons_eq, List.dlookup_eq_none.mpr fresh]
      cases kept : keep id status
      · simp [kept]
      · simp [kept, received_event]
    · rw [List.dlookup_cons_ne _ _ (Ne.symm same)]
      cases keep id status <;> simp [received_event, same]

/-- One copy for a member that the filter lets through. -/
theorem received_filtered (t : Tables) (channel : ChannelEntry) (event : Event) (except : Option UInt64)
    (required : Option Cap) (limit : Option Bool) (recipient : UInt64) :
    received recipient (t.toChannelFiltered channel event except required limit) =
      List.replicate ((channel.members.lookup recipient).any fun status =>
        some recipient != except && required.all (t.entry recipient).caps.has && status.holds limit).toNat event :=
  received_entries recipient event
    (fun id status => some id != except && required.all (t.entry id).caps.has && status.holds limit)
    channel.members.entries channel.members.nodupKeys

/-- The bytes that are queued for a client. -/
def Server.mailTo (s : Server) (recipient : UInt64) : List Bytes :=
  s.fx.mail.filterMap fun (other, bytes) => if other = recipient then some bytes else none

theorem Server.mailTo_send (s : Server) (recipient other : UInt64) (bytes : Bytes) :
    (s.send other bytes).mailTo recipient = s.mailTo recipient ++ if other = recipient then [bytes] else [] := by
  rw [mailTo, send, emit, List.filterMap_append]
  refine congrArg (_ ++ ·) ?_
  by_cases same : other = recipient
  · rw [List.filterMap_cons_some (b := bytes) (by simp [same]), if_pos same, List.filterMap_nil]
  · rw [List.filterMap_cons_none (by simp [same]), if_neg same, List.filterMap_nil]

/-- Whoever is not the sender gets its events as bytes for its capabilities, and nothing else unless plugins mailed
it. -/
theorem Server.mailTo_post (s : Server) {id recipient : UInt64} (other : recipient ≠ id) {out : List Outgoing}
    (unmailed : ∀ dest bytes, .mailed dest bytes ∉ out) :
    (out.foldl (post id) s).mailTo recipient =
      s.mailTo recipient ++ (received recipient out).map fun event => event.renderFor (s.entry recipient).caps := by
  induction out generalizing s with
  | nil => rw [List.foldl_nil, received_nil, List.map_nil, List.append_nil]
  | cons first out ih =>
    have apart : received recipient (first :: out) = received recipient [first] ++ received recipient out :=
      received_append recipient [first] out
    have mine : ¬ id = recipient := Ne.symm other
    -- numerics and failures go to the sender, and so not to the recipient
    have step : (s.post id first).mailTo recipient =
          s.mailTo recipient ++ (received recipient [first]).map fun event => event.renderFor (s.entry recipient).caps := by
      cases first with
      | event dest event =>
        rw [received_event, post, toClient]
        refine (s.mailTo_send recipient dest (event.renderFor (s.entry dest).caps)).trans (congrArg (_ ++ ·) ?_)
        by_cases same : dest = recipient
        · rw [if_pos same, if_pos same, same, List.map_singleton]
        · rw [if_neg same, if_neg same, List.map_nil]
      | mailed dest bytes => exact absurd List.mem_cons_self (unmailed dest bytes)
      | numeric code params text =>
        rw [post, numeric, mailTo_send, if_neg mine]
        rfl
      | fail command code context text =>
        rw [post, fail]
        split <;> rw [mailTo_send, if_neg mine] <;> rfl
    have kept : (s.post id first).toTables = s.toTables := by
      cases first with
      | event dest event => rfl
      | mailed dest bytes => rfl
      | numeric code params text => rfl
      | fail command code context text => exact fail_toTables s id command code context text
    rw [List.foldl_cons, ih _ fun dest bytes member => unmailed dest bytes (List.mem_cons_of_mem _ member), step, kept,
      apart, List.map_append, List.append_assoc]

/-! ## Who the clients are -/

/-- Plugins change channels and bans, and not who a client is. -/
structure KeepsClients (t t' : Tables) : Prop where
  info : t'.info = t.info
  clients : SameClients t t'

namespace KeepsClients

variable {t t' : Tables}

theorem of_eq (same : t' = t) : KeepsClients t t' := by
  rw [same]
  exact ⟨rfl, .of_locals rfl⟩

theorem trans {first second third : Tables} (left : KeepsClients first second) (right : KeepsClients second third) :
    KeepsClients first third :=
  ⟨right.info.trans left.info, left.clients.trans right.clients⟩

/-- A change elsewhere is stored. -/
theorem persisted (info : t'.info = t.info) (locals : t'.toLocals = t.toLocals) (folded : String) :
    KeepsClients t (t'.persisted folded) := by
  refine ⟨?_, (SameClients.of_locals locals).trans (.persisted t' folded)⟩
  rw [Tables.persisted]
  split <;> exact info

theorem remoteKick (s : Server) (channelName source targetUid reason : String) :
    KeepsClients s.toTables (s.remoteKick channelName source targetUid reason).toTables := by
  obtain same | ⟨id, -, kicked⟩ | ⟨-, -, kicked⟩ := s.remoteKick_toTables channelName source targetUid reason
  · exact of_eq same
  · rw [kicked]
    exact ⟨rfl, .partedLocal _ _ _⟩
  · rw [kicked]
    exact ⟨rfl, .of_locals rfl⟩

theorem applyModeChange (s : Server) (channelName source : String) (peerTs : UInt64) (flags : String)
    (args : List String) : KeepsClients s.toTables (s.applyModeChange channelName source peerTs flags args).1.toTables := by
  cases found : s.findChannel (s.fold channelName) with
  | none => exact of_eq (by rw [Server.applyModeChange_unknown found])
  | some channel =>
    rw [Server.applyModeChange_toTables found]
    split
    · exact of_eq rfl
    · dsimp only
      split
      · exact ⟨rfl, .of_locals rfl⟩
      · refine persisted ?_ ?_ _ <;> rfl

theorem remoteTopic (s : Server) (channelName source setBy : String) (setAt : UInt64) (text : String) :
    KeepsClients s.toTables (s.remoteTopic channelName source setBy setAt text).toTables := by
  rw [Server.remoteTopic_toTables]
  split
  · refine persisted ?_ ?_ _ <;> rfl
  · exact of_eq rfl

theorem killMatching (s : Server) (mask reason : String) :
    KeepsClients s.toTables (s.killMatching mask reason).toTables := by
  refine foldl_invariant (I := fun later : Server => KeepsClients s.toTables later.toTables) _ _ ?_ s (of_eq rfl)
  intro later id _ kept
  exact kept.trans ⟨rfl, .killed later.toTables id reason⟩

theorem applyPluginAction (s : Server) (action : Plugin.Action) :
    KeepsClients s.toTables (s.applyPluginAction action).toTables := by
  cases action with
  | notice target text => exact of_eq (s.pluginSay_toTables _ _ _)
  | message target text => exact of_eq (s.pluginSay_toTables _ _ _)
  | kick channel nick reason =>
    obtain same | ⟨display, uid, kicked⟩ := s.pluginKick_cases channel nick reason
    · exact of_eq same
    · exact kicked ▸ remoteKick s display "*" uid reason
  | mode channel flags args =>
    obtain same | ⟨entry, wire, -, applied⟩ := s.pluginMode_cases channel flags args
    · exact of_eq same
    · exact applied ▸ applyModeChange s entry.name "*" 0 flags wire
  | topic channel text =>
    obtain same | ⟨entry, -, changed⟩ := s.pluginTopic_cases channel text
    · exact of_eq same
    · exact changed ▸ remoteTopic s entry.name "*" s.info.name s.nowUnix text
  | kline mask reason setBy =>
    have banned : KeepsClients s.toTables (s.addKline (normalizeBanMask mask) reason setBy).toTables :=
      ⟨rfl, .of_locals rfl⟩
    exact banned.trans (killMatching _ _ _)

theorem applyPluginActions (s : Server) (actions : List Plugin.Action) :
    KeepsClients s.toTables (s.applyPluginActions actions).toTables :=
  foldl_invariant (I := fun later : Server => KeepsClients s.toTables later.toTables) _ actions
    (fun later action _ kept => kept.trans (applyPluginAction later action)) s (of_eq rfl)

theorem heard (s : Server) (id : UInt64) (host : PluginHost) (given text : String) :
    KeepsClients s.toTables (s.heard id host given text).toTables := by
  rw [Server.heard]
  cases s.asked id host given text with
  | none => exact of_eq rfl
  | some outcome => exact applyPluginActions s outcome.actions

theorem fold (kept : KeepsClients t t') : t'.fold = t.fold := by
  funext name
  rw [Tables.fold, Tables.fold, kept.info]

theorem findClient (kept : KeepsClients t t') (folded : String) : t'.findClient folded = t.findClient folded := by
  rw [Tables.findClient, Tables.findClient, kept.clients.clients]

theorem caps (kept : KeepsClients t t') (id : UInt64) : (t'.entry id).caps = (t.entry id).caps := by
  have identity := kept.clients.identity id
  simp only [ClientEntry.identity, ClientEntry.mk.injEq] at identity
  tauto

theorem senderLine (kept : KeepsClients t t') (id : UInt64) : t'.senderLine id = t.senderLine id := by
  have identity := kept.clients.identity id
  simp only [ClientEntry.identity, ClientEntry.mk.injEq] at identity
  rw [Tables.senderLine, Tables.senderLine, identity.1, identity.2.1, identity.2.2.1]

end KeepsClients

/-! ## A line that goes out -/

/-- What the plugins leave of a text. -/
def Verdict.text (verdict : Verdict) (text : String) : Option String :=
  match verdict with
  | .pass replacement => some (replacement.getD text)
  | .block _ => none

/-- A line that goes out: its text, the target as it is shown, the clients that are meant besides the sender's own
copy, and whether the copies are put in a batch. -/
structure Utterance where
  text : String
  shown : String
  includes : UInt64 → Bool
  batched : Bool

namespace Utterance

/-- Whether a client gets a line: it is meant, or it is the sender and wants an echo. -/
def entitles (u : Utterance) (t : Tables) (id recipient : UInt64) : Bool :=
  u.includes recipient || (recipient == id && (t.entry id).caps.has .echoMessage)

/-- How many copies of a line a client receives. -/
def copies (u : Utterance) (t : Tables) (id recipient : UInt64) : Nat :=
  (u.includes recipient).toNat + (recipient == id && (t.entry id).caps.has .echoMessage).toNat

/-- The batch that the copies of a line are put in. -/
def inBatch (u : Utterance) (batchRef : Option String) : Option String :=
  if u.batched then batchRef else none

def body (u : Utterance) (t : Tables) (id : UInt64) (notice : Bool) : String :=
  t.messageBody id notice u.shown u.text

end Utterance

/-- What a client receives of a line, if it goes out. -/
def Tables.delivered (t : Tables) (id recipient : UInt64) (notice : Bool) (msgid : String)
    (tags batchRef : Option String) (said : Option Utterance) : List Event :=
  said.elim [] fun u => List.replicate (u.copies t id recipient)
    (t.messageEvent id notice u.shown u.text msgid tags (u.inBatch batchRef))

namespace Server

/-- A line for a channel, for the members that the plugins leave in it. -/
def saidInChannel (s : Server) (id : UInt64) (host : PluginHost) (limit : Option Bool) (target text : String) :
    Option Utterance :=
  match s.findChannel (s.fold target) with
  | none => none
  | some channel =>
    match channel.speechRejection id with
    | some _ => none
    | none =>
      let outcome := host.onChannelMessage (s.entry id).nick channel.name text
      let later := s.applyPluginActions outcome.actions
      (outcome.verdict.text text).map fun text => {
        text
        shown := statusSign limit channel.name
        includes := fun recipient => recipient != id && (later.findChannel (s.fold target)).any fun channel =>
          (channel.members.lookup recipient).any fun status => status.holds limit
        batched := true }

/-- A line for a user, whoever that is after the plugins. -/
def saidToUser (s : Server) (id : UInt64) (host : PluginHost) (target text : String) : Option Utterance :=
  let outcome := host.onPrivateMessage (s.entry id).nick target text
  let later := s.applyPluginActions outcome.actions
  (outcome.verdict.text text).bind fun text =>
    match later.findClient (later.fold target) with
    | some dest => some {
        text
        shown := (later.entry dest).nick
        includes := fun recipient => recipient == dest && !(later.entry dest).silences (s.entry id).hostmask
        batched := true }
    | none => (later.findRemoteUser (later.fold target)).map fun remote =>
        { text, shown := remote.nick, includes := fun _ => false, batched := false }

/-- A line as it goes out, if neither the channel nor the plugins stop it. -/
def said (s : Server) (id : UInt64) (host : PluginHost) (given text : String) : Option Utterance :=
  let (limit, target) := statusTarget given
  if isValidChannel target then s.saidInChannel id host limit target text else s.saidToUser id host target text

theorem received_messageChannel (s : Server) (id recipient : UInt64) (host : PluginHost) (limit : Option Bool)
    (target text : String) (notice : Bool) (msgid : String) (tags batchRef : Option String) :
    received recipient (s.messageChannel id host limit target text notice msgid tags batchRef).2 =
      s.delivered id recipient notice msgid tags batchRef (s.saidInChannel id host limit target text) := by
  rw [messageChannel, saidInChannel]
  dsimp only
  cases s.findChannel (s.fold target) with
  | none => exact received_unlessNotice recipient notice _ _ _
  | some channel =>
    dsimp only
    cases channel.speechRejection id with
    | some reason => exact received_unlessNotice recipient notice _ _ reason
    | none =>
      dsimp only
      have acted := s.carryOut_toTables (host.onChannelMessage (s.entry id).nick channel.name text).actions
      have unseen := received_carryOut s recipient (host.onChannelMessage (s.entry id).nick channel.name text).actions
      generalize s.carryOut (host.onChannelMessage (s.entry id).nick channel.name text).actions = carried at acted unseen ⊢
      obtain ⟨later, mailed⟩ := carried
      dsimp only at acted unseen ⊢
      cases (host.onChannelMessage (s.entry id).nick channel.name text).verdict with
      | block reason =>
        dsimp only
        rw [received_append, unseen, received_unlessNotice_fail]
        rfl
      | pass replacement =>
        dsimp only [Verdict.text, Option.map_some, Tables.delivered, Option.elim_some, Utterance.copies, Utterance.inBatch]
        rw [recordMessage_ite_toTables, acted, received_append, received_append, unseen, List.nil_append, received_echo,
          ← List.replicate_append_replicate, if_pos rfl]
        refine congrArg (· ++ _) ?_
        cases (s.applyPluginActions _).findChannel (s.fold target) with
        | none => simp
        | some channel =>
          rw [Option.elim_some, received_filtered, Option.any_some]
          refine congrArg (fun copies => List.replicate copies _) (congrArg Bool.toNat ?_)
          cases channel.members.lookup recipient with
          | none => rw [Option.any_none, Option.any_none, Bool.and_false]
          | some status =>
            rw [Option.any_some, Option.any_some, Option.all_none, Bool.and_true]
            exact congrArg (· && _) (Bool.eq_iff_iff.mpr (by simp))

theorem received_messageUser (s : Server) (id recipient : UInt64) (host : PluginHost) (target text : String)
    (notice : Bool) (msgid : String) (tags batchRef : Option String) :
    received recipient (s.messageUser id host target text notice msgid tags batchRef).2 =
      s.delivered id recipient notice msgid tags batchRef (s.saidToUser id host target text) := by
  rw [messageUser, saidToUser]
  dsimp only
  have acted := s.carryOut_toTables (host.onPrivateMessage (s.entry id).nick target text).actions
  have unseen := received_carryOut s recipient (host.onPrivateMessage (s.entry id).nick target text).actions
  generalize s.carryOut (host.onPrivateMessage (s.entry id).nick target text).actions = carried at acted unseen ⊢
  obtain ⟨later, mailed⟩ := carried
  dsimp only at acted unseen ⊢
  rw [acted]
  generalize s.applyPluginActions (host.onPrivateMessage (s.entry id).nick target text).actions = after at acted ⊢
  cases (host.onPrivateMessage (s.entry id).nick target text).verdict with
  | block reason =>
    dsimp only
    rw [received_append, unseen, received_unlessNotice_fail]
    rfl
  | pass replacement =>
    dsimp only [Verdict.text, Option.bind_some]
    cases after.findClient (after.fold target) with
    | some dest =>
      dsimp only [Tables.delivered, Option.elim_some, Utterance.copies, Utterance.inBatch]
      rw [received_append, received_append, received_append, unseen, List.nil_append, received_away, List.append_nil,
        received_echo, ← List.replicate_append_replicate, if_pos rfl]
      refine congrArg (· ++ _) ?_
      -- a silenced sender is told of an absence all the same, and has the echo
      cases (after.entry dest).silences (s.entry id).hostmask with
      | true => rw [if_pos rfl, Bool.not_true, Bool.and_false, received_nil]; rfl
      | false =>
        rw [if_neg Bool.false_ne_true, Bool.not_false, Bool.and_true, received_event]
        by_cases same : recipient = dest
        · simp [same]
        · simp [same, Ne.symm same]
    | none =>
      dsimp only
      cases after.findRemoteUser (after.fold target) with
      | some remote =>
        dsimp only [Option.map_some, Tables.delivered, Option.elim_some, Utterance.copies, Utterance.inBatch]
        rw [received_append, received_append, unseen, List.nil_append, received_away, List.append_nil, received_echo,
          Bool.toNat_false, Nat.zero_add, if_neg Bool.false_ne_true]
        rfl
      | none =>
        dsimp only [Option.map_none, Tables.delivered, Option.elim_none]
        rw [received_append, unseen, received_unlessNotice]
        rfl

/-- What goes out does not depend on what is queued or logged. -/
theorem said_congr {s other : Server} (same : s.toTables = other.toTables) (id : UInt64) (host : PluginHost)
    (given text : String) : s.said id host given text = other.said id host given text := by
  have acted := applyPluginActions_congr same
  rw [said, said]
  dsimp only
  split
  · rw [saidInChannel, saidInChannel, same]
    simp only [acted]
  · rw [saidToUser, saidToUser, same]
    simp only [acted]

theorem heard_congr {s other : Server} (same : s.toTables = other.toTables) (id : UInt64) (host : PluginHost)
    (given text : String) : (s.heard id host given text).toTables = (other.heard id host given text).toTables := by
  have asked : s.asked id host given text = other.asked id host given text := by
    rw [asked, asked, askedOfChannel, askedOfChannel, same]
  rw [heard, heard, asked]
  cases other.asked id host given text with
  | none => exact same
  | some outcome => exact applyPluginActions_congr same outcome.actions

/-- What a client receives of one message. -/
theorem received_message (s : Server) (id recipient : UInt64) (host : PluginHost) (given text : String)
    (notice : Bool) (tags batchRef : Option String) :
    received recipient (s.cmdMessageInner id host [given, text] notice tags batchRef).2 =
      s.delivered id recipient notice s.fx.history.nextMsgid.1 tags batchRef (s.said id host given text) := by
  have same : (s.emit fun fx => { fx with history := s.fx.history.nextMsgid.2 }).toTables = s.toTables := rfl
  rw [← said_congr same, cmdMessageInner, said]
  dsimp only
  obtain ⟨limit, target⟩ := statusTarget given
  dsimp only
  by_cases valid : isValidChannel target
  · rw [if_pos valid, if_pos valid]
    exact received_messageChannel _ id recipient host limit target text notice _ tags batchRef
  · rw [if_neg valid, if_neg valid]
    exact received_messageUser _ id recipient host target text notice _ tags batchRef

/-- Whoever is meant by a line gets it in the batch. -/
theorem said_batched {s : Server} {id recipient : UInt64} {host : PluginHost} {given text : String} {u : Utterance}
    (goes : s.said id host given text = some u) (included : u.includes recipient = true) : u.batched = true := by
  rw [said] at goes
  dsimp only at goes
  split at goes
  · rw [saidInChannel] at goes
    split at goes
    · cases goes
    · split at goes
      · cases goes
      · obtain ⟨spoken, -, rfl⟩ := Option.map_eq_some_iff.mp goes
        rfl
  · rw [saidToUser] at goes
    obtain ⟨spoken, -, goes⟩ := Option.bind_eq_some_iff.mp goes
    split at goes
    · cases goes
      rfl
    · obtain ⟨remote, -, rfl⟩ := Option.map_eq_some_iff.mp goes
      cases included

end Server

/-! ## A whole batch -/

namespace Server

/-- The lines of a batch that go out, each from the state that the plugins left after the one before. -/
def utterances (id : UInt64) (given : String) : List String → List PluginHost → Server → List Utterance
  | text :: texts, hosts, s =>
    (s.said id (hosts.headD .none) given text).toList ++
      utterances id given texts hosts.tail (s.heard id (hosts.headD .none) given text)
  | [], _, _ => []

/-- The server after the plugins were asked about every line. -/
def heardAll (id : UInt64) (given : String) : List String → List PluginHost → Server → Server
  | text :: texts, hosts, s => heardAll id given texts hosts.tail (s.heard id (hosts.headD .none) given text)
  | [], _, s => s

theorem heardAll_keeps (s : Server) (id : UInt64) (given : String) (texts : List String) (hosts : List PluginHost) :
    KeepsClients s.toTables (heardAll id given texts hosts s).toTables := by
  induction texts generalizing hosts s with
  | nil => exact .of_eq rfl
  | cons text texts ih => exact (KeepsClients.heard s id _ given text).trans (ih _ _)

theorem utterances_batched {s : Server} {id recipient : UInt64} {given : String} {texts : List String}
    {hosts : List PluginHost} : ∀ u ∈ utterances id given texts hosts s, u.includes recipient = true → u.batched = true := by
  induction texts generalizing hosts s with
  | nil => exact fun u member => absurd member List.not_mem_nil
  | cons text texts ih =>
    intro u member
    rcases List.mem_append.mp member with first | later
    · exact said_batched (Option.mem_toList.mp first)
    · exact ih u later

end Server

/-- The copies of lines as they are sent: each with the line's text, in the batch or not. -/
def LineEvents (t : Tables) (id : UInt64) (batch : MultilineBatch) (reference : String)
    (sent : List (Utterance × Event)) : Prop :=
  ∀ one ∈ sent, one.2.body = one.1.body t id batch.isNotice ∧
    one.2.batch = (one.1.inBatch (some reference)).map fun reference => (.multiline, reference)

namespace Server

/-- What a client receives of the lines: as many copies of each that goes out as are due. -/
theorem received_flushLines (t : Tables) (id recipient : UInt64) (batch : MultilineBatch) (reference : String)
    (lines : List (String × Bool)) (hosts : List PluginHost) (s state : Server) (same : s.toTables = state.toTables)
    (kept : KeepsClients t state.toTables) :
    (flushLines id batch reference lines hosts s).1.toTables =
        (heardAll id batch.target (lines.map (·.1)) hosts state).toTables ∧
      ∃ sent, sent.map (·.1) = utterances id batch.target (lines.map (·.1)) hosts state ∧
        LineEvents t id batch reference sent ∧
        received recipient (flushLines id batch reference lines hosts s).2 =
          sent.flatMap fun one => List.replicate (one.1.copies t id recipient) one.2 := by
  induction lines generalizing hosts s state with
  | nil => exact ⟨same, [], rfl, fun _ member => absurd member List.not_mem_nil, rfl⟩
  | cons line lines ih =>
    obtain ⟨text, concat⟩ := line
    have heard := (s.cmdMessageInner_heard id (hosts.headD .none) batch.target text [] batch.isNotice
      (if concat then some "+draft/multiline-concat" else none) (some reference)).trans
      (heard_congr same id (hosts.headD .none) batch.target text)
    obtain ⟨last, sent, uttered, events, rest⟩ := ih hosts.tail _ _ heard
      (kept.trans (KeepsClients.heard state id (hosts.headD .none) batch.target text))
    rw [flushLines]
    refine ⟨last, ?_⟩
    dsimp only
    rw [List.map_cons, utterances, received_append, received_message, rest, said_congr same]
    -- a line that is stopped is left out of the batch, the frames around it stay
    cases state.said id (hosts.headD .none) batch.target text with
    | none => exact ⟨sent, uttered, events, List.nil_append _⟩
    | some u =>
      dsimp only [Tables.delivered, Option.elim_some]
      have due : u.copies s.toTables id recipient = u.copies t id recipient := by
        rw [Utterance.copies, Utterance.copies, same, kept.caps]
      rw [due]
      refine ⟨(u, s.messageEvent id batch.isNotice u.shown u.text s.fx.history.nextMsgid.1
        (if concat then some "+draft/multiline-concat" else none) (u.inBatch (some reference))) :: sent,
        congrArg (u :: ·) uttered, ?_, by rw [List.flatMap_cons]⟩
      intro one member
      rcases List.mem_cons.mp member with rfl | member
      · refine ⟨?_, rfl⟩
        rw [Tables.messageEvent, Utterance.body, Tables.messageBody, Tables.messageBody, same, kept.senderLine]
      · exact events one member

end Server

/-- Whether a client receives the frames of a batch, besides the sender's own copies. -/
def Tables.framed (t : Tables) (id : UInt64) (target : String) (recipient : UInt64) : Bool :=
  (t.entry recipient).caps.has .multiline &&
    if isValidChannel target then
      recipient != id && (t.findChannel (t.fold target)).any fun channel => (channel.members.lookup recipient).isSome
    else t.findClient (t.fold target) == some recipient

/-- How many copies of a frame a client receives. -/
def Tables.frameCopies (t : Tables) (id : UInt64) (target : String) (recipient : UInt64) : Nat :=
  (t.framed id target recipient).toNat +
    (recipient == id && ((t.entry id).caps.has .multiline && (t.entry id).caps.has .echoMessage)).toNat

namespace Server

theorem received_multilineFrame (s : Server) (id recipient : UInt64) (target reference : String) (opening : Bool) :
    received recipient (s.multilineFrame id target reference opening) =
      List.replicate (s.frameCopies id target recipient) (s.frameEvent id target reference opening) := by
  rw [multilineFrame, Tables.frameCopies, Tables.framed, ← List.replicate_append_replicate, received_append]
  -- one copy as a member of the target or as its user, one as the sender
  refine congrArg₂ (· ++ ·) ?_ ?_
  · by_cases valid : isValidChannel target
    · rw [if_pos valid, if_pos valid]
      cases s.findChannel (s.fold target) with
      | none => simp
      | some channel =>
        dsimp only
        rw [received_filtered, Option.any_some]
        refine congrArg (fun copies => List.replicate copies _) (congrArg Bool.toNat ?_)
        cases channel.members.lookup recipient with
        | none => simp
        | some status =>
          rw [Option.any_some, Option.all_some, MemberPrefix.holds, Option.all_none, Bool.and_true, Bool.and_comm]
          exact congrArg (_ && ·) (Bool.eq_iff_iff.mpr (by simp))
    · rw [if_neg valid, if_neg valid]
      cases s.findClient (s.fold target) with
      | none => simp
      | some dest =>
        dsimp only
        by_cases same : dest = recipient
        · subst same
          cases (s.entry dest).caps.has .multiline <;> simp [received_event]
        · cases (s.entry dest).caps.has .multiline <;> simp [received_event, same]
  · cases (s.entry id).caps.has .multiline with
    | false => simp
    | true => rw [if_pos rfl, received_echo, Bool.true_and]; rfl

end Server

/-! ## Brackets -/

/-- A frame is not a line. -/
theorem Tables.messageBody_ne_frame (t : Tables) (id : UInt64) (notice : Bool) (shown text target reference : String)
    (opening : Bool) : t.messageBody id notice shown text ≠ (t.frameEvent id target reference opening).body := by
  have verbs : ∀ (verb : String) (rest more : List Char), verb = "PRIVMSG" ∨ verb = "NOTICE" →
      verb.toList ++ rest ≠ "BATCH".toList ++ more := by
    rintro verb rest more (rfl | rfl) same <;> exact absurd (congrArg List.head? same) (by simp)
  intro same
  have chars := congrArg String.toList same
  cases opening
  all_goals
    simp only [messageBody, frameEvent, Line.command, Line.param, Line.trailing, Line.body, reduceIte,
      Bool.false_eq_true, String.toList_append, List.append_assoc, List.append_cancel_left_eq] at chars
    exact verbs (messageVerb notice) _ _ (by cases notice <;> simp [messageVerb]) chars

/-- The opening frame, lines of the batch with these bodies, and the closing frame. -/
def Grouped (opening closing : Event) (reference : String) (bodies : List String) (events : List Event) : Prop :=
  ∃ lines, events = opening :: (lines ++ [closing]) ∧ lines ≠ [] ∧ lines.map (·.body) = bodies ∧
    ∀ line ∈ lines, line.batch = some (.multiline, reference)

/-- Neither frame, and no line that a client with these capabilities sees in the batch. -/
def Apart (caps : CapSet) (opening closing : Event) (reference : String) (events : List Event) : Prop :=
  ∀ event ∈ events, event ≠ opening ∧ event ≠ closing ∧
    ¬ (event.batch = some (.multiline, reference) ∧ caps.has .multiline)

section Brackets

variable {opening closing : Event} {reference : String} {lines : List Event} {openings closings : Nat}

/-- One frame at each end, and lines between them. -/
theorem grouped_iff {bodies : List String} (plain : opening.batch = none ∧ closing.batch = none)
    (apart : opening ≠ closing) (fresh : opening ∉ lines ∧ closing ∉ lines) :
    Grouped opening closing reference bodies
        (List.replicate openings opening ++ lines ++ List.replicate closings closing) ↔
      openings = 1 ∧ closings = 1 ∧ lines ≠ [] ∧ lines.map (·.body) = bodies ∧
        ∀ line ∈ lines, line.batch = some (.multiline, reference) := by
  constructor
  · rintro ⟨between, whole, nonempty, bodies, tagged⟩
    -- the first event is the opening frame, and the second none
    have once : openings = 1 := by
      rcases openings with _ | _ | openings
      · have first : opening ∈ lines ++ List.replicate closings closing := by
          rw [List.replicate_zero, List.nil_append] at whole
          exact whole ▸ List.mem_cons_self
        rcases List.mem_append.mp first with member | member
        · exact absurd member fresh.1
        · exact absurd (List.eq_of_mem_replicate member) apart
      · rfl
      · obtain ⟨line, rest, rfl⟩ := List.exists_cons_of_ne_nil nonempty
        simp only [List.replicate_succ, List.cons_append, List.cons.injEq, true_and] at whole
        have inBatch := tagged line List.mem_cons_self
        rw [← whole.1, plain.1] at inBatch
        cases inBatch
    subst once
    simp only [List.replicate_one, List.cons_append, List.nil_append, List.cons.injEq, true_and] at whole
    -- the last event is the closing frame, and the one before it none
    have last : closings = 1 ∧ lines = between := by
      rcases closings with _ | closings
      · rw [List.replicate_zero, List.append_nil] at whole
        exact absurd (whole ▸ List.mem_append_right _ (List.mem_singleton_self closing)) fresh.2
      · rw [List.replicate_succ', ← List.append_assoc, List.append_cancel_right_eq] at whole
        rcases closings with _ | closings
        · exact ⟨rfl, by simpa using whole⟩
        · have inBatch := tagged closing (whole ▸ List.mem_append_right _ (by simp))
          rw [plain.2] at inBatch
          cases inBatch
    obtain ⟨once, rfl⟩ := last
    exact ⟨rfl, once, nonempty, bodies, tagged⟩
  · rintro ⟨rfl, rfl, nonempty, bodies, tagged⟩
    exact ⟨lines, List.append_assoc _ _ _, nonempty, bodies, tagged⟩

theorem apart_iff {caps : CapSet} (fresh : opening ∉ lines ∧ closing ∉ lines) :
    Apart caps opening closing reference
        (List.replicate openings opening ++ lines ++ List.replicate closings closing) ↔
      openings = 0 ∧ closings = 0 ∧
        ∀ line ∈ lines, ¬ (line.batch = some (.multiline, reference) ∧ caps.has .multiline) := by
  constructor
  · intro apart
    refine ⟨?_, ?_, fun line member => (apart line (by simp [member])).2.2⟩
    · by_contra framed
      exact (apart opening (by simp [framed])).1 rfl
    · by_contra framed
      exact (apart closing (by simp [framed])).2.1 rfl
  · rintro ⟨rfl, rfl, quiet⟩ event member
    simp only [List.replicate_zero, List.nil_append, List.append_nil] at member
    exact ⟨fun same => fresh.1 (same ▸ member), fun same => fresh.2 (same ▸ member), quiet event member⟩

end Brackets

/-! ## All the choices of recipients -/

namespace Server

/-- What a client is to receive of a batch: the lines that go out to it, between the frames, or nothing of the
batch. -/
def WellBracketed (s : Server) (id recipient : UInt64) (target : String) (notice : Bool) (texts : List String)
    (hosts : List PluginHost) (reference : String) (events : List Event) : Prop :=
  Grouped (s.frameEvent id target reference true) (s.frameEvent id target reference false) reference
      (((utterances id target texts hosts s).filter fun u => u.entitles s.toTables id recipient).map fun u =>
        u.body s.toTables id notice) events ∨
    Apart (s.entry recipient).caps (s.frameEvent id target reference true) (s.frameEvent id target reference false)
      reference events

/-- Frames and lines go to a client alike, if it negotiated multiline: it is among those the frames go to, before
the lines and after them, exactly if some line means it.  Its own frames are always echoed to a sender, so it may
not be its own recipient, and the echoes of the lines must be in the batch. -/
def Balanced (s : Server) (id recipient : UInt64) (target : String) (texts : List String)
    (hosts : List PluginHost) : Prop :=
  (s.entry recipient).caps.has .multiline →
    if recipient = id ∧ (s.entry id).caps.has .echoMessage then
      s.framed id target id = false ∧ utterances id target texts hosts s ≠ [] ∧
        ∀ u ∈ utterances id target texts hosts s, u.batched = true
    else
      s.framed id target recipient = (utterances id target texts hosts s).any (·.includes recipient) ∧
        (heardAll id target texts hosts s).framed id target recipient =
          (utterances id target texts hosts s).any (·.includes recipient)

/-- A target keeps its sign, or names a channel without it. -/
theorem statusTarget_cases (given : String) :
    statusTarget given = (none, given) ∨ isValidChannel (statusTarget given).2 := by
  rw [statusTarget]
  split
  · split
    · exact .inr ‹_›
    · exact .inl rfl
  · split
    · exact .inr ‹_›
    · exact .inl rfl
  · exact .inl rfl

/-- Whoever sends a message to itself gets the frames as the recipient, too. -/
theorem framed_of_said {s : Server} {id : UInt64} {target text : String} {host : PluginHost} {u : Utterance}
    (capable : (s.entry id).caps.has .multiline) (goes : s.said id host target text = some u)
    (included : u.includes id = true) : s.framed id target id = true := by
  rw [said] at goes
  dsimp only at goes
  split at goes
  · rw [saidInChannel] at goes
    split at goes
    · cases goes
    · split at goes
      · cases goes
      · obtain ⟨spoken, -, rfl⟩ := Option.map_eq_some_iff.mp goes
        simp at included
  · rename_i invalid
    have plain : statusTarget target = (none, target) := (statusTarget_cases target).resolve_right invalid
    rw [plain] at goes invalid
    rw [saidToUser] at goes
    obtain ⟨spoken, -, goes⟩ := Option.bind_eq_some_iff.mp goes
    have kept := KeepsClients.applyPluginActions s (host.onPrivateMessage (s.entry id).nick target text).actions
    rw [kept.fold, kept.findClient] at goes
    split at goes
    · rename_i found
      cases goes
      simp only [Bool.and_eq_true, beq_iff_eq] at included
      rw [Tables.framed, capable, Bool.true_and, if_neg invalid, found, ← included.1]
      exact beq_self_eq_true _
    · obtain ⟨remote, -, rfl⟩ := Option.map_eq_some_iff.mp goes
      cases included

/-- The plugins do not change whether a client is framed as the target of its own batch. -/
theorem framed_own {s later : Server} (kept : KeepsClients s.toTables later.toTables) (id : UInt64) (target : String) :
    later.framed id target id = s.framed id target id := by
  rw [Tables.framed, Tables.framed, kept.caps]
  split
  · simp
  · rw [kept.fold, kept.findClient]

theorem framed_of_utterances {s : Server} {id : UInt64} {target : String} {texts : List String}
    {hosts : List PluginHost} (capable : (s.entry id).caps.has .multiline) :
    ∀ u ∈ utterances id target texts hosts s, u.includes id = true → s.framed id target id = true := by
  induction texts generalizing hosts s with
  | nil => exact fun u member => absurd member List.not_mem_nil
  | cons text texts ih =>
    intro u member included
    rcases List.mem_append.mp member with first | later
    · exact framed_of_said capable (Option.mem_toList.mp first) included
    · have kept := KeepsClients.heard s id (hosts.headD .none) target text
      exact framed_own kept id target ▸ ih (kept.caps id ▸ capable) u later included

theorem received_flushMultiline (s : Server) (id recipient : UInt64) (hosts : List PluginHost)
    {batch : MultilineBatch} (whole : batch.failed = false) (nonempty : batch.lines ≠ []) :
    ∃ sent, sent.map (·.1) = utterances id batch.target (batch.lines.map (·.1)) hosts s ∧
      LineEvents s.toTables id batch s.fx.history.nextMsgid.1 sent ∧
      received recipient (s.flushMultiline id hosts batch).2 =
        List.replicate (s.frameCopies id batch.target recipient)
            (s.frameEvent id batch.target s.fx.history.nextMsgid.1 true) ++
          sent.flatMap (fun one => List.replicate (one.1.copies s.toTables id recipient) one.2) ++
          List.replicate ((heardAll id batch.target (batch.lines.map (·.1)) hosts s).frameCopies id batch.target recipient)
            (s.frameEvent id batch.target s.fx.history.nextMsgid.1 false) := by
  have begun : (s.emit fun fx => { fx with history := s.fx.history.nextMsgid.2 }).toTables = s.toTables := rfl
  obtain ⟨last, sent, uttered, events, lines⟩ := received_flushLines s.toTables id recipient batch
    s.fx.history.nextMsgid.1 batch.lines hosts _ s begun (.of_eq rfl)
  have kept := heardAll_keeps s id batch.target (batch.lines.map (·.1)) hosts
  have closing : (heardAll id batch.target (batch.lines.map (·.1)) hosts s).frameEvent id batch.target
      s.fx.history.nextMsgid.1 false = s.frameEvent id batch.target s.fx.history.nextMsgid.1 false := by
    rw [Tables.frameEvent, Tables.frameEvent, kept.senderLine]
  refine ⟨sent, uttered, events, ?_⟩
  rw [flushMultiline, whole, Bool.false_or, if_neg (by simpa using nonempty)]
  dsimp only
  rw [received_append, received_append, received_multilineFrame, lines, received_multilineFrame, last, closing]
  rfl

end Server

/-- Neither frame is the other. -/
theorem Tables.frameEvent_ne (t : Tables) (id : UInt64) (target reference : String) :
    t.frameEvent id target reference true ≠ t.frameEvent id target reference false := by
  intro same
  have chars := congrArg (fun event : Event => event.body.toList) same
  simp [frameEvent, Line.command, Line.param, Line.body] at chars

section Sent

variable {t : Tables} {id recipient : UInt64} {batch : MultilineBatch} {reference : String}
  {sent : List (Utterance × Event)}

theorem mem_copies {event : Event} :
    event ∈ sent.flatMap (fun one => List.replicate (one.1.copies t id recipient) one.2) ↔
      ∃ one ∈ sent, one.1.copies t id recipient ≠ 0 ∧ one.2 = event := by
  simp only [List.mem_flatMap, List.mem_replicate, eq_comm]

/-- A frame is not a line of the batch. -/
theorem LineEvents.fresh (events : LineEvents t id batch reference sent) (target : String) (opening : Bool) :
    t.frameEvent id target reference opening ∉
      sent.flatMap (fun one => List.replicate (one.1.copies t id recipient) one.2) := by
  intro member
  obtain ⟨one, isSent, -, same⟩ := mem_copies.mp member
  have body := (events one isSent).1
  rw [same] at body
  exact Tables.messageBody_ne_frame _ _ _ _ _ _ _ _ body.symm

/-- Only a sender that messages itself could get a line twice. -/
theorem Utterance.copies_eq {u : Utterance}
    (once : ¬ (u.includes recipient = true ∧ recipient = id ∧ (t.entry id).caps.has .echoMessage = true)) :
    u.copies t id recipient = (u.entitles t id recipient).toNat := by
  rw [copies, entitles]
  cases included : u.includes recipient with
  | false => rw [Bool.toNat_false, Nat.zero_add, Bool.false_or]
  | true =>
    have unechoed : (recipient == id && (t.entry id).caps.has .echoMessage) = false := by
      rw [Bool.eq_false_iff, ne_eq, Bool.and_eq_true, beq_iff_eq]
      exact fun echoes => once ⟨included, echoes⟩
    rw [unechoed, Bool.toNat_false, Nat.add_zero, Bool.true_or]

/-- If nobody gets a line twice, the lines are those that the client is entitled to. -/
theorem copies_entitled
    (single : ∀ one ∈ sent, one.1.copies t id recipient = (one.1.entitles t id recipient).toNat) :
    sent.flatMap (fun one => List.replicate (one.1.copies t id recipient) one.2) =
      (sent.filter fun one => one.1.entitles t id recipient).map (·.2) := by
  induction sent with
  | nil => rfl
  | cons one sent ih =>
    rw [List.flatMap_cons, ih fun other member => single other (List.mem_cons_of_mem _ member),
      single one List.mem_cons_self, List.filter_cons]
    cases one.1.entitles t id recipient <;> rfl

theorem LineEvents.bodies (events : LineEvents t id batch reference sent) :
    ((sent.filter fun one => one.1.entitles t id recipient).map (·.2)).map (·.body) =
      ((sent.map (·.1)).filter fun u => u.entitles t id recipient).map fun u => u.body t id batch.isNotice := by
  rw [List.filter_map, List.map_map, List.map_map]
  refine List.map_congr_left fun one member => ?_
  exact (events one (List.mem_of_mem_filter member)).1

/-- The lines that a client is entitled to are all in the batch. -/
theorem LineEvents.tagged (events : LineEvents t id batch reference sent) :
    (∀ line ∈ (sent.filter fun one => one.1.entitles t id recipient).map (·.2),
        line.batch = some (.multiline, reference)) ↔
      ∀ u ∈ sent.map (·.1), u.entitles t id recipient = true → u.batched = true := by
  have one_tagged : ∀ one ∈ sent, one.2.batch = some (.multiline, reference) ↔ one.1.batched = true := by
    intro one isSent
    rw [(events one isSent).2, Utterance.inBatch]
    cases one.1.batched <;> simp
  simp only [List.forall_mem_map, List.mem_filter, and_imp]
  exact forall₂_congr fun one isSent => imp_congr_right fun _ => one_tagged one isSent

theorem entitled_nonempty :
    (sent.filter fun one => one.1.entitles t id recipient).map (·.2) ≠ [] ↔
      (sent.map (·.1)).any (fun u => u.entitles t id recipient) = true := by
  rw [ne_eq, List.map_eq_nil_iff, List.filter_eq_nil_iff, List.any_map, List.any_eq_true]
  simp

end Sent

namespace Server

/-- A batch that goes out is well bracketed for a client exactly if its frames and its lines go to it alike. -/
theorem wellBracketed_iff (s : Server) (id recipient : UInt64) (hosts : List PluginHost) {batch : MultilineBatch}
    (whole : batch.failed = false) (nonempty : batch.lines ≠ []) :
    s.WellBracketed id recipient batch.target batch.isNotice (batch.lines.map (·.1)) hosts
        s.fx.history.nextMsgid.1 (received recipient (s.flushMultiline id hosts batch).2) ↔
      s.Balanced id recipient batch.target (batch.lines.map (·.1)) hosts := by
  obtain ⟨sent, uttered, events, all⟩ := s.received_flushMultiline id recipient hosts whole nonempty
  have kept := heardAll_keeps s id batch.target (batch.lines.map (·.1)) hosts
  have batched : ∀ u ∈ utterances id batch.target (batch.lines.map (·.1)) hosts s,
      u.includes recipient = true → u.batched = true := utterances_batched
  have own : (s.entry id).caps.has .multiline → ∀ u ∈ utterances id batch.target (batch.lines.map (·.1)) hosts s,
      u.includes id = true → s.framed id batch.target id = true := framed_of_utterances
  rw [WellBracketed, Balanced, all, grouped_iff ⟨rfl, rfl⟩ (Tables.frameEvent_ne _ _ _ _)
    ⟨events.fresh _ _, events.fresh _ _⟩, apart_iff ⟨events.fresh _ _, events.fresh _ _⟩, ← uttered]
  rw [← uttered] at batched own
  generalize heardAll id batch.target (batch.lines.map (·.1)) hosts s = last at kept ⊢
  rw [Tables.frameCopies, Tables.frameCopies, kept.caps]
  cases capable : (s.entry recipient).caps.has .multiline with
  | false =>
    -- no frames, and the lines are not shown in the batch
    have unframed : ∀ later : Server, (later.entry recipient).caps = (s.entry recipient).caps →
        later.framed id batch.target recipient = false := by
      intro later same
      rw [Tables.framed, same, capable, Bool.false_and]
    have unechoed : (recipient == id && ((s.entry id).caps.has .multiline && (s.entry id).caps.has .echoMessage)) =
        false := by
      by_cases same : recipient = id
      · rw [← same, capable, Bool.false_and, Bool.and_false]
      · rw [beq_false_of_ne same, Bool.false_and]
    rw [unframed s rfl, unframed last (kept.caps recipient), unechoed]
    exact iff_of_true (.inr ⟨rfl, rfl, fun _ _ seen => Bool.false_ne_true seen.2⟩) fun isCapable =>
      absurd isCapable Bool.false_ne_true
  | true =>
    by_cases echoing : recipient = id ∧ (s.entry id).caps.has .echoMessage
    · -- the sender itself sees the frames that are echoed
      obtain ⟨rfl, echoed⟩ := echoing
      rw [framed_own kept, echoed, capable, beq_self_eq_true, if_pos ⟨rfl, rfl⟩]
      simp only [Bool.and_self, Bool.toNat_true, Nat.add_eq_right, Bool.toNat_eq_zero, Nat.add_eq_zero_iff,
        Nat.one_ne_zero, and_false, false_and, or_false, forall_const]
      refine and_congr_right fun unframed => ?_
      have excluded : ∀ u ∈ sent.map (·.1), u.includes recipient = false := fun u member =>
        Bool.eq_false_iff.mpr fun included => Bool.false_ne_true (unframed.symm.trans (own capable u member included))
      have entitled : ∀ u : Utterance, u.entitles s.toTables recipient recipient = true := fun u => by
        rw [Utterance.entitles, echoed, beq_self_eq_true, Bool.and_self, Bool.or_true]
      have lines : sent.flatMap (fun one => List.replicate (one.1.copies s.toTables recipient recipient) one.2) =
          (sent.filter fun one => one.1.entitles s.toTables recipient recipient).map (·.2) :=
        copies_entitled fun one isSent => Utterance.copies_eq fun twice =>
          Bool.false_ne_true ((excluded _ (List.mem_map_of_mem isSent)).symm.trans twice.1)
      have nonempty_iff : (sent.map (·.1)).any (fun u => u.entitles s.toTables recipient recipient) = true ↔
          sent.map (·.1) ≠ [] := by
        simp only [entitled]
        cases sent <;> simp
      rw [lines, entitled_nonempty, events.bodies, events.tagged, nonempty_iff]
      simp only [unframed, entitled, forall_const, true_and]
    · -- everybody else sees those of the target
      have unechoed : (recipient == id && (s.entry id).caps.has .echoMessage) = false := by
        rw [Bool.eq_false_iff, ne_eq, Bool.and_eq_true, beq_iff_eq]
        exact echoing
      have frameless : (recipient == id && ((s.entry id).caps.has .multiline && (s.entry id).caps.has .echoMessage)) =
          false := by
        rw [Bool.and_left_comm, unechoed, Bool.and_false]
      have entitled : ∀ u : Utterance, u.entitles s.toTables id recipient = u.includes recipient := fun u => by
        rw [Utterance.entitles, unechoed, Bool.or_false]
      have lines : sent.flatMap (fun one => List.replicate (one.1.copies s.toTables id recipient) one.2) =
          (sent.filter fun one => one.1.entitles s.toTables id recipient).map (·.2) :=
        copies_entitled fun one _ => Utterance.copies_eq fun twice => echoing twice.2
      have tagged := events.tagged.mpr fun u member => entitled u ▸ batched u member
      -- without lines nothing shows that there is a batch
      have silent : (∀ line ∈ (sent.filter fun one => one.1.entitles s.toTables id recipient).map (·.2),
          ¬ (line.batch = some (.multiline, s.fx.history.nextMsgid.1) ∧ true = true)) ↔
            (sent.map (·.1)).any (fun u => u.entitles s.toTables id recipient) = false := by
        rw [← Bool.not_eq_true, ← entitled_nonempty, not_not]
        constructor
        · exact fun quiet => List.eq_nil_iff_forall_not_mem.mpr fun line member => quiet line member ⟨tagged line member, rfl⟩
        · intro none line member
          rw [none] at member
          exact absurd member List.not_mem_nil
      rw [lines, silent, entitled_nonempty, events.bodies, eq_true tagged, if_neg echoing, frameless]
      simp only [and_true, entitled, forall_const, Bool.toNat_false, Nat.add_zero, Bool.toNat_eq_one,
        Bool.toNat_eq_zero]
      cases s.framed id batch.target recipient <;> cases last.framed id batch.target recipient <;>
        cases (sent.map (·.1)).any (fun u => u.includes recipient) <;> decide

end Server

/-! ## Collecting a batch -/

/-- The batch as it is after more messages. -/
def collect (multiline : Option MultilineBatch) (messages : List Message) : Option MultilineBatch :=
  messages.foldl (fun multiline message =>
    match tryMultilineAccumulate multiline message with
    | some (batch, _) => some batch
    | none => multiline) multiline

/-- The line that a message adds to a batch, and whether it is a notice. -/
def batchLine (reference : String) (message : Message) : Option (Bool × String) :=
  (MultilineBatch.takes { reference, target := "" } message).bind fun notice =>
    (message.params[1]?).map fun text => (notice, text)

/-- The lines that messages send for a batch. -/
def batchLines (reference : String) (messages : List Message) : List (Bool × String) :=
  messages.filterMap (batchLine reference)

theorem collect_append (multiline : Option MultilineBatch) (messages later : List Message) :
    collect multiline (messages ++ later) = collect (collect multiline messages) later :=
  List.foldl_append

theorem batchLines_concat (reference : String) (messages : List Message) (message : Message) :
    batchLines reference (messages ++ [message]) =
      batchLines reference messages ++ (batchLine reference message).toList := by
  rw [batchLines, List.filterMap_append]
  refine congrArg (_ ++ ·) ?_
  cases added : batchLine reference message with
  | none => rw [List.filterMap_cons_none added]; rfl
  | some line => rw [List.filterMap_cons_some added]; rfl

/-- The bytes of a batch's lines. -/
def batchBytes (lines : List (Bool × String)) : Nat :=
  (lines.map fun line => line.2.utf8ByteSize).sum

/-- Whether the lines are too many or too long. -/
def Overlong (lines : List (Bool × String)) : Prop :=
  multilineMaxLines < lines.length ∨ multilineMaxBytes < batchBytes lines

theorem Overlong.more {lines : List (Bool × String)} (overlong : Overlong lines) (more : List (Bool × String)) :
    Overlong (lines ++ more) := by
  rw [Overlong, batchBytes, List.length_append, List.map_append, List.sum_append]
  rcases overlong with many | long
  · exact .inl (by omega)
  · exact .inr (long.trans_le (Nat.le_add_right _ _))

/-- A batch that has taken in these lines. -/
structure Collected (reference target : String) (lines : List (Bool × String)) (batch : MultilineBatch) : Prop where
  named : batch.reference = reference
  aimed : batch.target = target
  failed : batch.failed ↔ Overlong lines
  texts : ¬ batch.failed → batch.lines.map (·.1) = lines.map (·.2)
  bytes : ¬ batch.failed → batch.bytes = batchBytes lines
  kind : ¬ batch.failed → ∀ first, lines.head? = some first → batch.isNotice = first.1

theorem Collected.push {reference target : String} {lines : List (Bool × String)} {batch : MultilineBatch}
    (collected : Collected reference target lines batch) (whole : ¬ batch.failed) (notice : Bool) (text : String)
    (concat : Bool) :
    Collected reference target (lines ++ [(notice, text)])
      ((if batch.lines.isEmpty then { batch with isNotice := notice } else batch).push text concat).1 := by
  have short : ¬ Overlong lines := fun overlong => whole (collected.failed.mpr overlong)
  rw [Overlong, not_or, Nat.not_lt, Nat.not_lt] at short
  have count := congrArg List.length (collected.texts whole)
  rw [List.length_map, List.length_map] at count
  have size := collected.bytes whole
  -- the first line decides whether the batch is a notice
  have kind : ∀ first, (lines ++ [(notice, text)]).head? = some first →
      (if batch.lines.isEmpty then { batch with isNotice := notice } else batch : MultilineBatch).isNotice = first.1 := by
    intro first head
    cases lines with
    | nil =>
      rw [List.length_nil] at count
      rw [if_pos (List.isEmpty_iff.mpr (List.eq_nil_of_length_eq_zero count))]
      cases head
      rfl
    | cons line rest =>
      have filled : ¬ batch.lines.isEmpty := by
        rw [List.isEmpty_iff_length_eq_zero, count]
        exact Nat.succ_ne_zero _
      rw [if_neg filled]
      exact collected.kind whole first head
  generalize opened_eq : (if batch.lines.isEmpty then { batch with isNotice := notice } else batch) = opened at kind ⊢
  have kept : opened.reference = batch.reference ∧ opened.target = batch.target ∧ opened.lines = batch.lines ∧
      opened.bytes = batch.bytes ∧ opened.failed = batch.failed := by
    rw [← opened_eq]
    split <;> exact ⟨rfl, rfl, rfl, rfl, rfl⟩
  obtain ⟨reference_eq, target_eq, lines_eq, bytes_eq, failed_eq⟩ := kept
  have bytes_more : batchBytes (lines ++ [(notice, text)]) = batchBytes lines + text.utf8ByteSize := by
    simp [batchBytes]
  rw [MultilineBatch.push]
  dsimp only
  rw [lines_eq, bytes_eq]
  split
  · rename_i many
    have overlong : Overlong (lines ++ [(notice, text)]) := .inl (by simp; omega)
    exact ⟨reference_eq.trans collected.named, target_eq.trans collected.aimed, ⟨fun _ => overlong, fun _ => rfl⟩,
      absurd rfl, absurd rfl, absurd rfl⟩
  · split
    · rename_i long
      have overlong : Overlong (lines ++ [(notice, text)]) := .inr (by omega)
      exact ⟨reference_eq.trans collected.named, target_eq.trans collected.aimed, ⟨fun _ => overlong, fun _ => rfl⟩,
        absurd rfl, absurd rfl, absurd rfl⟩
    · rename_i few fits
      have fine : ¬ Overlong (lines ++ [(notice, text)]) := by
        rw [Overlong, bytes_more, List.length_append, List.length_singleton]
        omega
      refine ⟨reference_eq.trans collected.named, target_eq.trans collected.aimed,
        ⟨fun failed => absurd (failed_eq ▸ failed) whole, fun overlong => absurd overlong fine⟩, fun _ => ?_,
        fun _ => ?_, fun _ => kind⟩
      · rw [List.map_append, List.map_append, collected.texts whole]
        rfl
      · rw [bytes_more, ← size]

theorem Collected.step {reference target : String} {lines : List (Bool × String)} {batch : MultilineBatch}
    (collected : Collected reference target lines batch) (message : Message) :
    ∃ later, collect (some batch) [message] = some later ∧
      Collected reference target (lines ++ (batchLine reference message).toList) later := by
  have same : MultilineBatch.takes { reference, target := "" } message = batch.takes message := by
    rw [MultilineBatch.takes, MultilineBatch.takes, collected.named]
  rw [collect, List.foldl_cons, List.foldl_nil, tryMultilineAccumulate, batchLine, same, Option.bind_some]
  cases batch.takes message with
  | none => exact ⟨batch, rfl, by simpa using collected⟩
  | some notice =>
    by_cases failed : batch.failed
    · rw [Option.map_some, if_pos failed]
      exact ⟨batch, rfl, collected.named, collected.aimed,
        ⟨fun _ => (collected.failed.mp failed).more _, fun _ => failed⟩, absurd failed, absurd failed, absurd failed⟩
    · rw [Option.map_some, if_neg failed]
      -- a message without a text is dropped
      cases params : message.params with
      | nil => exact ⟨batch, rfl, by simpa using collected⟩
      | cons first rest =>
        cases rest with
        | nil => exact ⟨batch, rfl, by simpa using collected⟩
        | cons text rest => exact ⟨_, rfl, collected.push failed notice text _⟩

/-- Every batch that messages make. -/
theorem collect_collected (reference target : String) (messages : List Message) :
    ∃ batch, collect (some { reference, target }) messages = some batch ∧
      Collected reference target (batchLines reference messages) batch := by
  induction messages using List.reverseRecOn with
  | nil =>
    have short : ¬ Overlong [] := by simp [Overlong, batchBytes, multilineMaxLines, multilineMaxBytes]
    exact ⟨_, rfl, rfl, rfl, ⟨nofun, fun overlong => absurd overlong short⟩, fun _ => rfl, fun _ => rfl, fun _ => nofun⟩
  | append_singleton messages message ih =>
    obtain ⟨batch, made, collected⟩ := ih
    obtain ⟨later, added, further⟩ := collected.step message
    refine ⟨later, ?_, ?_⟩
    · rw [collect_append, made]
      exact added
    · rw [batchLines_concat]
      exact further

/-! ## From the opening to the close -/

namespace Server

theorem cmdBatch_opening (s : Server) (id : UInt64) (hosts : List PluginHost) (multiline : Option MultilineBatch)
    (name target : String) :
    s.cmdBatch id hosts multiline ["+" ++ name, "draft/multiline", target] =
      (some { reference := name, target }, s, []) := by
  rw [cmdBatch.eq_def]
  dsimp only
  rw [stripLead?_some.mpr rfl]
  exact if_pos rfl

theorem cmdBatch_closing (s : Server) (id : UInt64) (hosts : List PluginHost) {batch : MultilineBatch} {name : String}
    (named : batch.reference = name) :
    s.cmdBatch id hosts (some batch) ["-" ++ name] = (none, s.flushMultiline id hosts batch) := by
  have other : stripLead? ("-" ++ name) "+" = none := by
    rw [Option.eq_none_iff_forall_ne_some]
    intro rest stripped
    have chars := congrArg String.toList (stripLead?_some.mp stripped)
    simp at chars
  rw [cmdBatch.eq_def]
  dsimp only
  rw [other, stripLead?_some.mpr rfl]
  exact if_pos named

/-- A batch that is too long delivers nothing.  A batch is well bracketed for every client exactly if it is too
long, or has no lines, or its frames and its lines go to the same clients. -/
theorem multiline_bracketed (before s : Server) (id : UInt64) (opened : Option MultilineBatch)
    (early hosts : List PluginHost) (name target : String) (messages : List Message) :
    let sent := collect (before.cmdBatch id early opened ["+" ++ name, "draft/multiline", target]).1 messages
    let lines := batchLines name messages
    let out := (s.cmdBatch id hosts sent ["-" ++ name]).2.2
    (Overlong lines → out = []) ∧
      ((∀ recipient, s.WellBracketed id recipient target ((lines.head?.map (·.1)).getD false) (lines.map (·.2)) hosts
          s.fx.history.nextMsgid.1 (received recipient out)) ↔
        Overlong lines ∨ lines = [] ∨ ∀ recipient, s.Balanced id recipient target (lines.map (·.2)) hosts) := by
  intro sent lines out
  obtain ⟨batch, made, collected⟩ := collect_collected name target messages
  have closed : out = (s.flushMultiline id hosts batch).2 := by
    simp only [out, sent, cmdBatch_opening, made, s.cmdBatch_closing id hosts collected.named]
  have silent : out = [] → ∀ recipient, s.WellBracketed id recipient target ((lines.head?.map (·.1)).getD false)
      (lines.map (·.2)) hosts s.fx.history.nextMsgid.1 (received recipient out) := by
    intro nothing recipient
    rw [nothing]
    exact .inr fun event member => absurd member List.not_mem_nil
  -- a batch that is too long or empty sends nothing at all
  by_cases failed : batch.failed
  · have nothing : out = [] := by rw [closed, flushMultiline, failed, Bool.true_or, if_pos rfl]
    exact ⟨fun _ => nothing, fun _ => .inl (collected.failed.mp failed), fun _ => silent nothing⟩
  · have fits : ¬ Overlong lines := fun overlong => failed (collected.failed.mpr overlong)
    have texts : batch.lines.map (·.1) = lines.map (·.2) := collected.texts failed
    refine ⟨fun overlong => absurd overlong fits, ?_⟩
    by_cases none : lines = []
    · have empty : batch.lines = [] := List.map_eq_nil_iff.mp (texts.trans (by rw [none]; rfl))
      have nothing : out = [] := by rw [closed, flushMultiline, empty, List.isEmpty_nil, Bool.or_true, if_pos rfl]
      exact ⟨fun _ => .inr (.inl none), fun _ => silent nothing⟩
    · obtain ⟨first, rest, split⟩ := List.exists_cons_of_ne_nil none
      have nonempty : batch.lines ≠ [] := by
        intro empty
        rw [empty, split] at texts
        cases texts
      have kind : (lines.head?.map (·.1)).getD false = batch.isNotice := by
        rw [collected.kind failed first (congrArg List.head? split), split]
        rfl
      have each : ∀ recipient, s.WellBracketed id recipient target ((lines.head?.map (·.1)).getD false)
          (lines.map (·.2)) hosts s.fx.history.nextMsgid.1 (received recipient out) ↔
            s.Balanced id recipient target (lines.map (·.2)) hosts := by
        intro recipient
        have bracketed := s.wellBracketed_iff id recipient hosts (Bool.eq_false_iff.mpr failed) nonempty
        rwa [collected.aimed, texts, ← closed, ← kind] at bracketed
      exact ⟨fun all => .inr (.inr fun recipient => (each recipient).mp (all recipient)), fun fine recipient =>
        (each recipient).mpr ((fine.resolve_left fits).resolve_left none recipient)⟩

/-- `#den` is moderated; `alice` has no voice there, and `bob` negotiated multiline. -/
def moderatedDen : Server :=
  { alpha with
    channels := (∅ : Table String ChannelEntry).insert "#den" {
      name := "#den"
      members := ((∅ : Table UInt64 MemberPrefix).insert 1 {}).insert 2 {}
      modes := { moderated := true }
      createdAt := 1 }
    entries := ((∅ : Table UInt64 ClientEntry).insert 1
      { nick := "alice", user := "a", host := "a.example", registered := true, channels := ["#den"] }).insert 2
      { nick := "bob", user := "b", host := "b.example", registered := true, channels := ["#den"], caps := [.multiline] }
    clients := ((∅ : Table String UInt64).insert "alice" 1).insert "bob" 2
    byId := [1, 2]
    nextId := 3 }

/-- A line of the batch `m1`. -/
def greetingLine : Message where
  tags := [⟨"batch", some "m1"⟩]
  source := none
  command := .named "PRIVMSG"
  params := ["#den", "hello"]

/-- `bob` receives the frames of a batch whose lines were refused. -/
theorem muted_batch_fails :
    let opened := (moderatedDen.cmdBatch 1 [] none ["+m1", "draft/multiline", "#den"]).1
    let events := received 2 (moderatedDen.cmdBatch 1 [] (collect opened [greetingLine]) ["-m1"]).2.2
    batchLines "m1" [greetingLine] = [(false, "hello")] ∧
      ¬ moderatedDen.WellBracketed 1 2 "#den" false ["hello"] [] moderatedDen.fx.history.nextMsgid.1 events := by
  intro opened events
  have frames : events = [moderatedDen.frameEvent 1 "#den" moderatedDen.fx.history.nextMsgid.1 true,
      moderatedDen.frameEvent 1 "#den" moderatedDen.fx.history.nextMsgid.1 false] := by decide
  refine ⟨by decide, ?_⟩
  rintro (⟨lines, whole, nonempty, -⟩ | apart)
  · rw [frames, List.cons.injEq] at whole
    have lengths := congrArg List.length whole.2
    rw [List.length_append, List.length_singleton] at lengths
    exact nonempty (List.eq_nil_of_length_eq_zero (by omega))
  · exact (apart _ (frames ▸ List.mem_cons_self)).1 rfl

end Server

end Ferrixd
