import Ferrixd.Command.Actions
import Ferrixd.Labels
import Ferrixd.State.Session

/-! # PRIVMSG, NOTICE and multiline batches

A client may send the lines of a message one by one, in a batch that the server collects.  At its close
the lines go the way of single messages, between two frames for those who negotiated multiline. -/

namespace Ferrixd

open Protocol

def rplAway : Nat := 301
def errCannotSendToChan : Nat := 404
def errNoRecipient : Nat := 411
def errNoTextToSend : Nat := 412

/-- The most lines a batch may have. -/
def multilineMaxLines : Nat := 100

/-- The most bytes of text a batch may have. -/
def multilineMaxBytes : Nat := 4096

/-! ## What a message sends -/

/-- What is sent while a message is handled: events, replies to the sender, and what the actions of plugins mailed. -/
inductive Outgoing where
  | event (recipient : UInt64) (event : Event)
  | mailed (recipient : UInt64) (bytes : Bytes)
  | numeric (code : Nat) (params : List String) (text : String)
  | fail (command code : String) (context : List String) (text : String)

/-- What the plugins make of a message. -/
inductive Verdict where
  | pass (replacement : Option String)
  | block (reason : Option String)

/-- What a hook call comes to: what the plugins queued, and what they make of the message. -/
structure HookOutcome where
  actions : List Plugin.Action := []
  verdict : Verdict

/-- The plugins as they are asked about a message, by its sender, its target and its text. -/
structure PluginHost where
  onChannelMessage : String → String → String → HookOutcome
  onPrivateMessage : String → String → String → HookOutcome

/-- No plugins. -/
def PluginHost.none : PluginHost where
  onChannelMessage _ _ _ := { verdict := .pass Option.none }
  onPrivateMessage _ _ _ := { verdict := .pass Option.none }

/-- What plugins make of a message that queue nothing. -/
structure MessageHooks where
  onChannelMessage : String → String → String → Verdict
  onPrivateMessage : String → String → String → Verdict

/-- Hooks without plugins. -/
def MessageHooks.none : MessageHooks where
  onChannelMessage _ _ _ := .pass Option.none
  onPrivateMessage _ _ _ := .pass Option.none

def MessageHooks.host (hooks : MessageHooks) : PluginHost where
  onChannelMessage sender target text := { verdict := hooks.onChannelMessage sender target text }
  onPrivateMessage sender target text := { verdict := hooks.onPrivateMessage sender target text }

/-- A reply that a notice does not get. -/
def unlessNotice (notice : Bool) (reply : Outgoing) : List Outgoing :=
  if notice then [] else [reply]

/-- The status a message to a channel is limited to, and its target without the sign. -/
def statusTarget (target : String) : Option Bool × String :=
  match target.toList with
  | '@' :: rest => if isValidChannel (String.ofList rest) then (some true, String.ofList rest) else (none, target)
  | '+' :: rest => if isValidChannel (String.ofList rest) then (some false, String.ofList rest) else (none, target)
  | _ => (none, target)

/-- A channel's name with the sign of the status that a message is limited to. -/
def statusSign (status : Option Bool) (display : String) : String :=
  match status with
  | some true => "@" ++ display
  | some false => "+" ++ display
  | none => display

/-- Why a client may not speak on a channel, if it may not. -/
def ChannelEntry.speechRejection (channel : ChannelEntry) (id : UInt64) : Option String :=
  if channel.modes.noExternal && (channel.members.lookup id).isNone then some "Cannot send to channel"
  else if channel.modes.moderated && !(channel.members.lookup id).any fun status => status.op || status.voice then
    some "Cannot send to channel (+m)"
  else none

/-- Whether a member has the status that a message is limited to. -/
def MemberPrefix.holds (status : MemberPrefix) (limit : Option Bool) : Bool :=
  limit.all fun opOnly => status.op || (!opOnly && status.voice)

namespace Tables

/-- The copies of an event for the members of a channel: not for one of them, only for those with a
capability, or with a status. -/
def toChannelFiltered (t : Tables) (channel : ChannelEntry) (event : Event) (except : Option UInt64)
    (required : Option Cap) (limit : Option Bool) : List Outgoing :=
  (channel.members.entries.filter fun member =>
    some member.1 != except && required.all (t.entry member.1).caps.has && member.2.holds limit).map
      fun member => .event member.1 event

/-- A line of a client's, with the mask of the client. -/
def senderLine (t : Tables) (id : UInt64) : Line :=
  Line.user (t.entry id).nick (t.entry id).user (t.entry id).host

def messageBody (t : Tables) (id : UInt64) (notice : Bool) (target text : String) : String :=
  t.senderLine id |>.command (messageVerb notice) |>.param target |>.trailing text |>.body

/-- A message of a client's as its recipients see it. -/
def messageEvent (t : Tables) (id : UInt64) (notice : Bool) (target text msgid : String)
    (tags batchRef : Option String) : Event where
  body := t.messageBody id notice target text
  time := some (formatServerTime t.nowMillis)
  account := (t.entry id).account
  msgid := some msgid
  clientTags := tags
  batch := batchRef.map fun reference => (.multiline, reference)
  bot := (t.entry id).bot

/-- The sender's own copy of an event, with `echo-message`. -/
def echo (t : Tables) (id : UInt64) (event : Event) : List Outgoing :=
  if (t.entry id).caps.has .echoMessage then [.event id event] else []

end Tables

namespace Server

/-- Log a message of a sender's. -/
def recordMessage (s : Server) (sender : ClientEntry) (folded target text msgid : String) (notice : Bool) : Server :=
  s.emit fun fx => { fx with
    history := fx.history.record folded
      ⟨msgid, s.nowMillis, sender.hostmask, sender.account, messageKind notice, target, text⟩ }

/-- Carry out what the plugins queued; what that mails goes out in its place. -/
def carryOut (s : Server) (actions : List Plugin.Action) : Server × List Outgoing :=
  let later := (s.emit fun fx => { fx with mail := [] }).applyPluginActions actions
  (later.emit fun fx => { fx with mail := s.fx.mail }, later.fx.mail.map fun (id, bytes) => .mailed id bytes)

/-! ## Messages -/

/-- A message to a channel, or to the members of it that hold a status.  Whoever the plugins took out of the
channel does not get it. -/
def messageChannel (s : Server) (id : UInt64) (host : PluginHost) (status : Option Bool) (target text : String)
    (notice : Bool) (msgid : String) (tags batchRef : Option String) : Server × List Outgoing :=
  let folded := s.fold target
  match s.findChannel folded with
  | none => (s, unlessNotice notice (.numeric errNoSuchNick [target] "No such nick/channel"))
  | some channel =>
    match channel.speechRejection id with
    | some reason => (s, unlessNotice notice (.numeric errCannotSendToChan [channel.name] reason))
    | none =>
      let entry := s.entry id
      let outcome := host.onChannelMessage entry.nick channel.name text
      let (later, mailed) := s.carryOut outcome.actions
      match outcome.verdict with
      | .block reason =>
        (later, mailed ++ unlessNotice notice (.fail (messageVerb notice) "MSG_BLOCKED" [channel.name]
          (reason.getD "Message blocked by server policy")))
      | .pass replacement =>
        let text := replacement.getD text
        -- a limited message would replay to members without the status
        let later := if status.isNone then later.recordMessage entry folded channel.name text msgid notice else later
        let wireTarget := statusSign status channel.name
        let event := s.messageEvent id notice wireTarget text msgid tags batchRef
        -- a channel that the actions emptied is gone, and has nobody to deliver to
        let copies := (later.findChannel folded).elim [] fun channel =>
          later.toChannelFiltered channel event (some id) none status
        (later.relayToMembers (trimStatus wireTarget) none
          (.chanMessage entry.hostmask wireTarget notice (some msgid) (some s.nowMillis) tags text),
          mailed ++ copies ++ s.echo id event)

/-- A message to a user, here or on another server, as the plugins left them. -/
def messageUser (s : Server) (id : UInt64) (host : PluginHost) (target text : String) (notice : Bool)
    (msgid : String) (tags batchRef : Option String) : Server × List Outgoing :=
  let entry := s.entry id
  let outcome := host.onPrivateMessage entry.nick target text
  let (later, mailed) := s.carryOut outcome.actions
  match outcome.verdict with
  | .block reason =>
    (later, mailed ++ unlessNotice notice (.fail (messageVerb notice) "MSG_BLOCKED" [target]
      (reason.getD "Message blocked by server policy")))
  | .pass replacement =>
    let text := replacement.getD text
    let folded := later.fold target
    match later.findClient folded with
    | some dest =>
      let nick := (later.entry dest).nick
      let event := s.messageEvent id notice nick text msgid tags batchRef
      let copy := if (later.entry dest).silences entry.hostmask then [] else [Outgoing.event dest event]
      let away := (later.entry dest).away.elim [] fun away => unlessNotice notice (.numeric rplAway [nick] away)
      (later.recordMessage entry (pairKey (later.fold entry.nick) (later.fold nick)) nick text msgid notice,
        mailed ++ copy ++ s.echo id event ++ away)
    | none =>
      match later.findRemoteUser folded with
      | some remote =>
        let later := later.recordMessage entry (pairKey (later.fold entry.nick) folded) remote.nick text msgid notice
        -- this copy is not put in the batch
        let event := s.messageEvent id notice remote.nick text msgid tags none
        let away := remote.away.elim [] fun away => unlessNotice notice (.numeric rplAway [remote.nick] away)
        (later.sendTowards remote.serverSid
          (.userMessage entry.hostmask remote.nick notice (some msgid) (some s.nowMillis) tags text),
          mailed ++ s.echo id event ++ away)
      | none => (later, mailed ++ unlessNotice notice (.numeric errNoSuchNick [target] "No such nick/channel"))

/-- `PRIVMSG` and `NOTICE`, possibly for a batch. -/
def cmdMessageInner (s : Server) (id : UInt64) (host : PluginHost) (params : List String) (notice : Bool)
    (tags batchRef : Option String) : Server × List Outgoing :=
  match params with
  | [] => (s, unlessNotice notice (.numeric errNoRecipient [] "No recipient given"))
  | [_] => (s, unlessNotice notice (.numeric errNoTextToSend [] "No text to send"))
  | given :: text :: _ =>
    -- the identifier is taken before anything is checked
    let (msgid, history) := s.fx.history.nextMsgid
    let s := s.emit fun fx => { fx with history }
    let (status, target) := statusTarget given
    if isValidChannel target then s.messageChannel id host status target text notice msgid tags batchRef
    else s.messageUser id host target text notice msgid tags batchRef

def cmdMessage (s : Server) (id : UInt64) (host : PluginHost) (params : List String) (notice : Bool)
    (tags : Option String) : Server × List Outgoing :=
  s.cmdMessageInner id host params notice tags none

/-- Send what is outgoing, rendered for its recipient. -/
def post (id : UInt64) (s : Server) : Outgoing → Server
  | .event recipient event => s.toClient recipient event
  | .mailed recipient bytes => s.send recipient bytes
  | .numeric code params text => s.numeric id code params (some text)
  | .fail command code context text => s.fail id command code context text

end Server

/-! ## Batches -/

/-- A multiline batch that a client sends. -/
structure MultilineBatch where
  reference : String
  target : String
  isNotice : Bool := false
  /-- The lines, and whether each continues the one before it. -/
  lines : List (String × Bool) := []
  bytes : Nat := 0
  failed : Bool := false

namespace MultilineBatch

/-- Whether a message is for the batch, and then whether it is a notice. -/
def takes (batch : MultilineBatch) (message : Message) : Option Bool :=
  if (message.tag "batch").join = some batch.reference then
    match message.command with
    | .named name =>
      if eqIgnoreAsciiCase name "NOTICE" then some true
      else if eqIgnoreAsciiCase name "PRIVMSG" then some false
      else none
    | .numeric _ => none
  else none

/-- Take in a line, or fail because there are too many or because they are too long. -/
def push (batch : MultilineBatch) (text : String) (concat : Bool) : MultilineBatch × List Outgoing :=
  let refuse (code : String) (limit : Nat) : MultilineBatch × List Outgoing :=
    ({ batch with failed := true }, [.fail "BATCH" code [toString limit] "Multiline batch is too large"])
  if multilineMaxLines ≤ batch.lines.length then refuse "MULTILINE_MAX_LINES" multilineMaxLines
  else if multilineMaxBytes < batch.bytes + text.utf8ByteSize then refuse "MULTILINE_MAX_BYTES" multilineMaxBytes
  else
    ({ batch with bytes := batch.bytes + text.utf8ByteSize, lines := batch.lines ++ [(text, concat)] }, [])

end MultilineBatch

/-- Absorb a message for the open batch, if it is one. -/
def tryMultilineAccumulate (multiline : Option MultilineBatch) (message : Message) :
    Option (MultilineBatch × List Outgoing) :=
  multiline.bind fun batch => (batch.takes message).map fun notice =>
    if batch.failed then (batch, [])
    else match message.params with
      | _ :: text :: _ =>
        -- the first line fixes the command
        let batch := if batch.lines.isEmpty then { batch with isNotice := notice } else batch
        batch.push text (message.tag "draft/multiline-concat").isSome
      | _ => (batch, [])

/-- The frame that opens or closes a batch. -/
def Tables.frameEvent (t : Tables) (id : UInt64) (target reference : String) (opening : Bool) : Event :=
  let line := t.senderLine id |>.command "BATCH"
  let line := if opening then line.param ("+" ++ reference) |>.param "draft/multiline" |>.param target
    else line.param ("-" ++ reference)
  { body := line.body }

namespace Server

/-- A frame, for the recipients that negotiated multiline. -/
def multilineFrame (s : Server) (id : UInt64) (target reference : String) (opening : Bool) : List Outgoing :=
  let event := s.frameEvent id target reference opening
  let out :=
    if isValidChannel target then
      match s.findChannel (s.fold target) with
      | some channel => s.toChannelFiltered channel event (some id) (some .multiline) none
      | none => []
    else match s.findClient (s.fold target) with
      | some dest => if (s.entry dest).caps.has .multiline then [.event dest event] else []
      | none => []
  out ++ if (s.entry id).caps.has .multiline then s.echo id event else []

/-- The lines of a batch, one message each; `hosts` are the plugins as they are when each line comes. -/
def flushLines (id : UInt64) (batch : MultilineBatch) (reference : String) :
    List (String × Bool) → List PluginHost → Server → Server × List Outgoing
  | (text, concat) :: lines, hosts, s =>
    let tags := if concat then some "+draft/multiline-concat" else none
    let (s, out) := s.cmdMessageInner id (hosts.headD .none) [batch.target, text] batch.isNotice tags (some reference)
    let (s, later) := flushLines id batch reference lines hosts.tail s
    (s, out ++ later)
  | [], _, s => (s, [])

/-- Deliver a complete batch. -/
def flushMultiline (s : Server) (id : UInt64) (hosts : List PluginHost) (batch : MultilineBatch) :
    Server × List Outgoing :=
  if batch.failed || batch.lines.isEmpty then (s, [])
  else
    let (reference, history) := s.fx.history.nextMsgid
    let s := s.emit fun fx => { fx with history }
    let opening := s.multilineFrame id batch.target reference true
    let (s, lines) := flushLines id batch reference batch.lines hosts s
    (s, opening ++ lines ++ s.multilineFrame id batch.target reference false)

/-- `BATCH`: a client opens or closes a multiline batch. -/
def cmdBatch (s : Server) (id : UInt64) (hosts : List PluginHost) (multiline : Option MultilineBatch)
    (params : List String) : Option MultilineBatch × Server × List Outgoing :=
  match params with
  | [] => (multiline, s, [])
  | reference :: rest =>
    match stripLead? reference "+", stripLead? reference "-" with
    | some name, _ =>
      if rest.head? = some "draft/multiline" then
        match rest with
        | _ :: target :: _ => (some { reference := name, target }, s, [])
        | _ => (multiline, s, [.fail "BATCH" "MULTILINE_INVALID_TARGET" [] "Missing target"])
      else (multiline, s, [])
    | none, some name =>
      match multiline with
      | some batch =>
        -- another reference leaves the batch open
        if batch.reference = name then (none, s.flushMultiline id hosts batch) else (some batch, s, [])
      | none => (none, s, [])
    | none, none => (multiline, s, [])

/-! ## Messages leave the tables alone -/

@[simp] theorem recordMessage_toTables (s : Server) (sender : ClientEntry) (folded target text msgid : String)
    (notice : Bool) : (s.recordMessage sender folded target text msgid notice).toTables = s.toTables := rfl

theorem recordMessage_ite_toTables (s : Server) (limited : Bool) (sender : ClientEntry)
    (folded target text msgid : String) (notice : Bool) :
    (if limited then s.recordMessage sender folded target text msgid notice else s).toTables = s.toTables := by
  cases limited <;> rfl

theorem carryOut_toTables (s : Server) (actions : List Plugin.Action) :
    (s.carryOut actions).1.toTables = (s.applyPluginActions actions).toTables := by
  have same : (s.emit fun fx => { fx with mail := [] }).toTables = s.toTables := rfl
  exact applyPluginActions_congr same actions

@[simp] theorem carryOut_nil (s : Server) : s.carryOut [] = (s, []) := rfl

/-- What the plugins come to about a line for a channel, if the client may speak there. -/
def askedOfChannel (s : Server) (id : UInt64) (host : PluginHost) (target text : String) : Option HookOutcome :=
  match s.findChannel (s.fold target) with
  | none => none
  | some channel =>
    match channel.speechRejection id with
    | some _ => none
    | none => some (host.onChannelMessage (s.entry id).nick channel.name text)

/-- What the plugins come to about a line, if it reaches them. -/
def asked (s : Server) (id : UInt64) (host : PluginHost) (given text : String) : Option HookOutcome :=
  let target := (statusTarget given).2
  if isValidChannel target then s.askedOfChannel id host target text
  else some (host.onPrivateMessage (s.entry id).nick target text)

/-- The server after the plugins were asked about a line. -/
def heard (s : Server) (id : UInt64) (host : PluginHost) (given text : String) : Server :=
  (s.asked id host given text).elim s fun outcome => s.applyPluginActions outcome.actions

theorem messageChannel_toTables (s : Server) (id : UInt64) (host : PluginHost) (limit : Option Bool)
    (target text : String) (notice : Bool) (msgid : String) (tags batchRef : Option String) :
    (s.messageChannel id host limit target text notice msgid tags batchRef).1.toTables =
      ((s.askedOfChannel id host target text).elim s fun outcome => s.applyPluginActions outcome.actions).toTables := by
  rw [messageChannel, askedOfChannel]
  dsimp only
  cases s.findChannel (s.fold target) with
  | none => rfl
  | some channel =>
    dsimp only
    cases channel.speechRejection id with
    | some reason => rfl
    | none =>
      dsimp only [Option.elim_some]
      have acted := s.carryOut_toTables (host.onChannelMessage (s.entry id).nick channel.name text).actions
      cases (host.onChannelMessage (s.entry id).nick channel.name text).verdict with
      | block reason => exact acted
      | pass replacement =>
        dsimp only
        rw [relayToMembers_toTables, recordMessage_ite_toTables]
        exact acted

theorem messageUser_toTables (s : Server) (id : UInt64) (host : PluginHost) (target text : String)
    (notice : Bool) (msgid : String) (tags batchRef : Option String) :
    (s.messageUser id host target text notice msgid tags batchRef).1.toTables =
      (s.applyPluginActions (host.onPrivateMessage (s.entry id).nick target text).actions).toTables := by
  rw [messageUser]
  have acted := s.carryOut_toTables (host.onPrivateMessage (s.entry id).nick target text).actions
  generalize s.carryOut (host.onPrivateMessage (s.entry id).nick target text).actions = carried at acted ⊢
  obtain ⟨later, mailed⟩ := carried
  dsimp only at acted ⊢
  cases (host.onPrivateMessage (s.entry id).nick target text).verdict with
  | block reason => exact acted
  | pass replacement =>
    dsimp only
    cases later.findClient (later.fold target) with
    | some dest => exact acted
    | none =>
      dsimp only
      cases later.findRemoteUser (later.fold target) with
      | some remote =>
        dsimp only
        rw [sendTowards_toTables, recordMessage_toTables]
        exact acted
      | none => exact acted

/-- A message itself changes what is queued and logged, and nothing else; the plugins may change more. -/
theorem cmdMessageInner_heard (s : Server) (id : UInt64) (host : PluginHost) (given text : String) (more : List String)
    (notice : Bool) (tags batchRef : Option String) :
    (s.cmdMessageInner id host (given :: text :: more) notice tags batchRef).1.toTables =
      (s.heard id host given text).toTables := by
  rw [cmdMessageInner, heard, asked]
  dsimp only
  obtain ⟨limit, target⟩ := statusTarget given
  dsimp only
  -- the identifier that is taken first is in none of the tables
  have same : (s.emit fun fx => { fx with history := s.fx.history.nextMsgid.2 }).toTables = s.toTables := rfl
  generalize s.emit (fun fx => { fx with history := s.fx.history.nextMsgid.2 }) = taken at same ⊢
  by_cases valid : isValidChannel target
  · rw [if_pos valid, if_pos valid, messageChannel_toTables, askedOfChannel, same, ← askedOfChannel]
    cases s.askedOfChannel id host target text with
    | none => exact same
    | some outcome => exact applyPluginActions_congr same outcome.actions
  · rw [if_neg valid, if_neg valid, messageUser_toTables, same]
    exact applyPluginActions_congr same _

@[simp] theorem heard_host (s : Server) (id : UInt64) (hooks : MessageHooks) (given text : String) :
    s.heard id hooks.host given text = s := by
  have silent : ∀ outcome ∈ s.asked id hooks.host given text, outcome.actions = [] := by
    intro outcome isOutcome
    rw [asked] at isOutcome
    split at isOutcome
    · rw [askedOfChannel] at isOutcome
      split at isOutcome
      · cases isOutcome
      · split at isOutcome <;> cases isOutcome
        rfl
    · cases isOutcome
      rfl
  rw [heard]
  cases asked : s.asked id hooks.host given text with
  | none => rfl
  | some outcome =>
    rw [Option.elim_some, silent outcome asked]
    rfl

/-- Without actions of plugins, messages change what is queued and logged, and nothing else. -/
theorem cmdMessageInner_toTables (s : Server) (id : UInt64) (hooks : MessageHooks) (params : List String)
    (notice : Bool) (tags batchRef : Option String) :
    (s.cmdMessageInner id hooks.host params notice tags batchRef).1.toTables = s.toTables := by
  rcases params with _ | ⟨given, _ | ⟨text, more⟩⟩
  · rfl
  · rfl
  · rw [cmdMessageInner_heard, heard_host]

end Server

end Ferrixd
