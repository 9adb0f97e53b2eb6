import Ferrixd.Command.Multiline
import Ferrixd.Invariant.Nicks
import Ferrixd.Ts6.Aliases

/-! # Who a bridged message is from

A frame for a TS6 peer names users by their nicks, and waits in a mailbox before the nicks are looked up. -/

namespace Ferrixd

/-! ## What was sent -/

/-- Frames are queued behind those that were, all of one kind. -/
def Sends (s s' : Server) (kind : LinkMessage → Prop) : Prop :=
  ∃ sent, s'.fx.frames = s.fx.frames ++ sent ∧ ∀ frame ∈ sent, kind frame.2

namespace Sends

variable {s s' : Server} {kind : LinkMessage → Prop}

theorem of_frames (same : s'.fx.frames = s.fx.frames) : Sends s s' kind :=
  ⟨[], by rw [same, List.append_nil], fun _ member => absurd member List.not_mem_nil⟩

theorem trans {first second third : Server} (left : Sends first second kind) (right : Sends second third kind) :
    Sends first third kind := by
  obtain ⟨before, first_eq, kinds⟩ := left
  obtain ⟨after, second_eq, later⟩ := right
  refine ⟨before ++ after, by rw [second_eq, first_eq, List.append_assoc], fun frame member => ?_⟩
  rcases List.mem_append.mp member with member | member
  · exact kinds frame member
  · exact later frame member

theorem sendToLink (s : Server) (sid : String) {message : LinkMessage} (holds : kind message) :
    Sends s (s.sendToLink sid message) kind := by
  rw [Server.sendToLink]
  split
  · exact ⟨[(sid, message)], rfl, fun frame member => by rwa [List.mem_singleton.mp member]⟩
  · exact of_frames rfl

theorem sendTowards (s : Server) (sid : String) {message : LinkMessage} (holds : kind message) :
    Sends s (s.sendTowards sid message) kind := by
  rw [Server.sendTowards]
  split
  · exact .sendToLink s _ holds
  · exact of_frames rfl

theorem relayToMembers (s : Server) (channelName : String) (originSid : Option String) {message : LinkMessage}
    (holds : kind message) : Sends s (s.relayToMembers channelName originSid message) kind := by
  rw [Server.relayToMembers]
  split
  · exact of_frames rfl
  · exact foldl_invariant (I := fun later : Server => Sends s later kind) _ _
      (fun later peer _ sent => sent.trans (.sendToLink later peer holds)) s (of_frames rfl)

end Sends

/-- The mask of the sender in a message. -/
def LinkMessage.displaySource : LinkMessage → Option String
  | .userMessage source _ _ _ _ _ _ => some source
  | .chanMessage source _ _ _ _ _ _ => some source
  | _ => none

/-- The nick that a direct message is for. -/
def LinkMessage.displayTarget : LinkMessage → Option String
  | .userMessage _ target _ _ _ _ _ => some target
  | _ => none

namespace Server

theorem messageChannel_sends (s : Server) (id : UInt64) (hooks : MessageHooks) (limit : Option Bool)
    (target text : String) (notice : Bool) (msgid : String) (tags batchRef : Option String) :
    Sends s (s.messageChannel id hooks.host limit target text notice msgid tags batchRef).1
      (fun frame => frame.displaySource = some (s.entry id).hostmask) := by
  rw [messageChannel]
  dsimp only
  split
  · exact .of_frames rfl
  · split
    · exact .of_frames rfl
    · split
      · exact .of_frames rfl
      · refine .trans ?_ (.relayToMembers _ _ _ ?_)
        · split <;> exact .of_frames rfl
        · rfl

theorem messageUser_sends (s : Server) (id : UInt64) (hooks : MessageHooks) (target text : String)
    (notice : Bool) (msgid : String) (tags batchRef : Option String) :
    Sends s (s.messageUser id hooks.host target text notice msgid tags batchRef).1
      (fun frame => frame.displaySource = some (s.entry id).hostmask) := by
  rw [messageUser]
  dsimp only
  split
  · exact .of_frames rfl
  · split
    · exact .of_frames rfl
    · split
      · refine .trans (.of_frames ?_) (.sendTowards _ _ rfl)
        rfl
      · exact .of_frames rfl

/-- A client's message is passed on under its mask. -/
theorem cmdMessage_sends (s : Server) (id : UInt64) (hooks : MessageHooks) (params : List String) (notice : Bool)
    (tags : Option String) :
    Sends s (s.cmdMessage id hooks.host params notice tags).1 (fun frame => frame.displaySource = some (s.entry id).hostmask) := by
  rw [cmdMessage, cmdMessageInner.eq_def]
  split
  · exact .of_frames rfl
  · exact .of_frames rfl
  · dsimp only
    have begun : Sends s (s.emit fun fx => { fx with history := s.fx.history.nextMsgid.2 })
        (fun frame => frame.displaySource = some (s.entry id).hostmask) := .of_frames rfl
    split
    · exact begun.trans (messageChannel_sends _ id _ _ _ _ _ _ _ _)
    · exact begun.trans (messageUser_sends _ id _ _ _ _ _ _ _)

end Server

/-! ## The mailbox and its writer -/

/-- A waiting frame, with the UIDs of whoever sent the message and of whom it was for when it was queued. -/
structure Queued where
  frame : LinkMessage
  author : Option String
  addressee : Option String
  deriving DecidableEq

/-- A line sent to the peer, and the frame it is for. -/
structure Written where
  queued : Queued
  line : Bytes
  deriving DecidableEq

/-- A server with the mailbox of one TS6 link and its writer. -/
structure Bridge where
  node : Node
  waiting : List Queued := []
  mapper : UidMapper := {}
  written : List Written := []

/-- The UID of whoever holds the nick at the start of a mask. -/
def Tables.holder (t : Tables) (mask : Option String) : Option String :=
  mask.bind fun mask => t.uidOfNick (beforeChar mask '!')

/-- The frames that a step queued for one peer. -/
def framesFor (sid : String) (before after : Server) : List LinkMessage :=
  ((after.fx.frames.drop before.fx.frames.length).filter fun frame => frame.1 = sid).map (·.2)

/-- What clients, peers and the writer do. -/
inductive BridgeAction where
  | session (call : SessionCall) (next : Node)
  | message (id : UInt64) (hooks : MessageHooks) (params : List String) (notice : Bool) (tags : Option String)
  | drain

namespace Bridge

/-- The server after a client's message, when no plugin queues anything. -/
def messaged (bridge : Bridge) (id : UInt64) (hooks : MessageHooks) (params : List String) (notice : Bool)
    (tags : Option String) : Server :=
  let (s, out) := bridge.node.server.cmdMessage id hooks.host params notice tags
  out.foldl (Server.post id) s

/-- What a step queued for the peer: the frames of peers are from whoever holds the nick. -/
def sessioned (bridge : Bridge) (sid : String) (next : Node) : Bridge :=
  { bridge with
    node := next
    waiting := bridge.waiting ++ (framesFor sid bridge.node.server next.server).map fun frame =>
      ⟨frame, next.server.holder frame.displaySource, next.server.holder frame.displayTarget⟩ }

/-- A client's message is from the client. -/
def spoken (bridge : Bridge) (sid : String) (id : UInt64) (hooks : MessageHooks) (params : List String)
    (notice : Bool) (tags : Option String) : Bridge :=
  let next := bridge.messaged id hooks params notice tags
  { bridge with
    node := ⟨next, bridge.node.connected⟩
    waiting := bridge.waiting ++ (framesFor sid bridge.node.server next).map fun frame =>
      ⟨frame, some (bridge.node.server.localUid id), bridge.node.server.holder frame.displayTarget⟩ }

/-- The writer takes the next frame from the mailbox. -/
def drained (bridge : Bridge) (peerCaps : List String) : Bridge :=
  match bridge.waiting with
  | [] => bridge
  | queued :: rest =>
    let (lines, mapper) := bridge.node.server.encodeOutbound bridge.mapper peerCaps queued.frame
    { bridge with
      waiting := rest
      mapper
      written := bridge.written ++ lines.map fun line => ⟨queued, line⟩ }

def Performs (sid : String) (peerCaps : List String) (bridge bridge' : Bridge) : BridgeAction → Prop
  | .session call next => call.Performs bridge.node next ∧ bridge' = bridge.sessioned sid next
  | .message id hooks params notice tags =>
      id ∈ bridge.node.connected ∧ (bridge.node.server.entry id).registered = true ∧
      bridge' = bridge.spoken sid id hooks params notice tags
  | .drain => bridge' = bridge.drained peerCaps

/-- The writer starts with an empty mailbox and no aliases. -/
def machine (sid : String) (peerCaps : List String) : Machine Bridge BridgeAction where
  start bridge := SessionCall.machine.start bridge.node ∧ bridge = { node := bridge.node }
  step bridge action bridge' := bridge.Performs sid peerCaps bridge' action

/-- No step changes who holds a nick that a waiting message names. -/
def Steady (bridge : Bridge) : BridgeAction → Prop
  | .session _ next => ∀ queued ∈ bridge.waiting,
      next.server.holder queued.frame.displaySource = bridge.node.server.holder queued.frame.displaySource ∧
        next.server.holder queued.frame.displayTarget = bridge.node.server.holder queued.frame.displayTarget
  | .message _ _ _ _ _ => True
  | .drain => True

end Bridge

/-- A line carries the identifiers of whoever sent the message and of whom it was for. -/
def Written.Attributed (mapper : UidMapper) (written : Written) : Prop :=
  match written.queued.frame with
  | .userMessage _ _ notice _ _ _ text => ∃ author addressee src dst,
      written.queued.author = some author ∧ written.queued.addressee = some addressee ∧
      mapper.identifier author = some src ∧ mapper.identifier addressee = some dst ∧
      written.line = (Line.server src |>.command (messageVerb notice) |>.param dst |>.trailing text |>.build)
  | .chanMessage _ channel notice _ _ _ text => ∃ author src,
      written.queued.author = some author ∧ mapper.identifier author = some src ∧
      written.line = (Line.server src |>.command (messageVerb notice) |>.param channel |>.trailing text |>.build)
  | _ => True

/-! ## Aliases stay -/

theorem modeArgsToTs6_extends (flags : List Char) (adding : Bool) (args : List String) (mapper : UidMapper) :
    mapper.Extends
      (translateModeArgs true (fun uid mapper => mapper.toTs6 uid) flags adding args mapper).2 := by
  induction flags generalizing adding args mapper with
  | nil => exact .refl mapper
  | cons c flags ih =>
    rw [translateModeArgs.eq_def]
    dsimp only
    split
    · exact ih _ _ _
    · split
      · exact ih _ _ _
      · split
        · cases args with
          | nil => exact ih _ _ _
          -- the argument of a status is a user, the others are passed on
          | cons arg args => exact (mapper.toTs6_extends arg).trans (ih _ _ _)
        · split
          · split
            · cases args with
              | nil => exact ih _ _ _
              | cons arg args => exact ih _ _ _
            · exact ih _ _ _
          · split
            · cases args with
              | nil => exact ih _ _ _
              | cons arg args => exact ih _ _ _
            · exact ih _ _ _

namespace Tables

theorem fromUser_extends (mapper : UidMapper) (uid : String) (line : String → Line) :
    mapper.Extends (fromUser mapper uid line).2 :=
  mapper.toTs6_extends uid

theorem uidForSource_extends (t : Tables) (mapper : UidMapper) (source : String) :
    mapper.Extends (t.uidForSource mapper source).2 := by
  rw [uidForSource]
  split
  · exact mapper.toTs6_extends _
  · exact .refl mapper

theorem ts6Source_extends (t : Tables) (mapper : UidMapper) (source : String) :
    mapper.Extends (t.ts6Source mapper source).2 := by
  rw [ts6Source]
  split
  · exact .refl mapper
  · exact mapper.toTs6_extends source

theorem encodeMessage_extends (t : Tables) (mapper : UidMapper) (source : String) (notice : Bool)
    {target : UidMapper → Option String × UidMapper} (looks : ∀ mapper : UidMapper, mapper.Extends (target mapper).2)
    (text : String) : mapper.Extends (t.encodeMessage mapper source notice target text).2 := by
  have both := (t.uidForSource_extends mapper source).trans (looks _)
  rw [encodeMessage]
  dsimp only
  split <;> exact both

/-- Translating a frame forgets no alias. -/
theorem encodeOutbound_extends (t : Tables) (mapper : UidMapper) (peerCaps : List String) (message : LinkMessage) :
    mapper.Extends (t.encodeOutbound mapper peerCaps message).2 := by
  cases message with
  | uid sid uid lamport nick user host account realname => exact mapper.toTs6_extends uid
  | nick uid nick => exact fromUser_extends mapper uid _
  | quit uid reason => exact fromUser_extends mapper uid _
  | userMessage source target notice msgid timeMs tags text =>
    exact t.encodeMessage_extends mapper source notice (fun mapper => t.uidForSource_extends mapper target) text
  | chanMessage source channel notice msgid timeMs tags text =>
    exact t.encodeMessage_extends mapper source notice UidMapper.Extends.refl text
  | sjoin channel uid op voice ts => exact fromUser_extends mapper uid _
  | spart channel uid reason => exact fromUser_extends mapper uid _
  | stopic channel source setBy setAt text =>
    rw [encodeOutbound]
    split
    · split <;> exact .refl mapper
    · exact fromUser_extends mapper source _
  | smode channel source ts flags args =>
    have begun := t.ts6Source_extends mapper source
    rw [encodeOutbound]
    dsimp only
    split
    · exact begun
    · exact begun.trans (modeArgsToTs6_extends _ _ _ _)
  | skick channel source target reason =>
    have both := (t.ts6Source_extends mapper source).trans (UidMapper.toTs6_extends _ target)
    rw [encodeOutbound]
    dsimp only
    split <;> exact both
  | saway uid reason => exact fromUser_extends mapper uid _
  | saccount uid account => exact fromUser_extends mapper uid _
  | kill uid reason => exact fromUser_extends mapper uid _
  | sumode uid flags => exact mapper.toTs6_extends uid
  | sknock source channel mask => exact fromUser_extends mapper source _
  | schghost uid host => exact fromUser_extends mapper uid _
  | sinvite source target channel =>
    have both := (mapper.toTs6_extends source).trans (UidMapper.toTs6_extends _ target)
    rw [encodeOutbound]
    dsimp only
    split <;> exact both
  | _ => exact .refl mapper

end Tables

/-! ## The lines of a message -/

theorem Written.Attributed.extends {mapper later : UidMapper} {written : Written}
    (attributed : written.Attributed mapper) (kept : mapper.Extends later) : written.Attributed later := by
  rw [Attributed] at attributed ⊢
  split
  · rename_i frame
    rw [frame] at attributed
    obtain ⟨author, addressee, src, dst, isAuthor, isAddressee, isSource, isTarget, line⟩ := attributed
    exact ⟨author, addressee, src, dst, isAuthor, isAddressee, kept _ _ isSource, kept _ _ isTarget, line⟩
  · rename_i frame
    rw [frame] at attributed
    obtain ⟨author, src, isAuthor, isSource, line⟩ := attributed
    exact ⟨author, src, isAuthor, kept _ _ isSource, line⟩
  · trivial

/-- The nicks in a waiting message are held by those it is from and for. -/
def Queued.Resolves (queued : Queued) (t : Tables) : Prop :=
  (queued.frame.displaySource.isSome → t.holder queued.frame.displaySource = queued.author) ∧
    (queued.frame.displayTarget.isSome → t.holder queued.frame.displayTarget = queued.addressee)

namespace Tables

theorem uidForSource_some {t : Tables} {mapper : UidMapper} {source src : String}
    (found : (t.uidForSource mapper source).1 = some src) :
    ∃ uid, t.holder (some source) = some uid ∧ (t.uidForSource mapper source).2.identifier uid = some src := by
  rw [holder, Option.bind_some]
  rw [uidForSource] at found ⊢
  cases held : t.uidOfNick (beforeChar source '!') with
  | none =>
    rw [held] at found
    cases found
  | some uid =>
    rw [held] at found
    exact ⟨uid, rfl, (mapper.identifier_toTs6 uid).trans found⟩

/-- While the nicks of a message are held by those it is from and for, it is translated with their
identifiers. -/
theorem encodeOutbound_attributed {t : Tables} {queued : Queued} (resolves : queued.Resolves t) (mapper : UidMapper)
    (peerCaps : List String) {line : Bytes} (sent : line ∈ (t.encodeOutbound mapper peerCaps queued.frame).1) :
    (Written.mk queued line).Attributed (t.encodeOutbound mapper peerCaps queued.frame).2 := by
  obtain ⟨frame, author, addressee⟩ := queued
  rw [Written.Attributed]
  dsimp only at sent resolves ⊢
  cases frame with
  | userMessage source target notice msgid timeMs tags text =>
    rw [encodeOutbound, encodeMessage] at sent ⊢
    dsimp only at sent ⊢
    split at sent
    · rename_i src dst isSource isTarget
      obtain ⟨uid, held, known⟩ := uidForSource_some isSource
      -- the nicks still belong to those who held them when the frame was queued
      obtain ⟨other, otherHeld, otherKnown⟩ := uidForSource_some isTarget
      have kept := t.uidForSource_extends (t.uidForSource mapper source).2 target
      exact ⟨uid, other, src, dst, (resolves.1 rfl).symm.trans held, (resolves.2 rfl).symm.trans otherHeld,
        kept _ _ known, otherKnown, List.mem_singleton.mp sent⟩
    · exact absurd sent List.not_mem_nil
  | chanMessage source channel notice msgid timeMs tags text =>
    rw [encodeOutbound, encodeMessage] at sent ⊢
    dsimp only at sent ⊢
    split at sent
    · rename_i src dst isSource isTarget
      obtain ⟨uid, held, known⟩ := uidForSource_some isSource
      cases isTarget
      exact ⟨uid, src, (resolves.1 rfl).symm.trans held, known, List.mem_singleton.mp sent⟩
    · exact absurd sent List.not_mem_nil
  | _ => trivial

end Tables

/-! ## Runs -/

namespace Bridge

theorem post_frames (id : UInt64) (out : List Outgoing) (s : Server) :
    (out.foldl (Server.post id) s).toTables = s.toTables ∧ (out.foldl (Server.post id) s).fx.frames = s.fx.frames := by
  refine foldl_invariant (I := fun later : Server => later.toTables = s.toTables ∧ later.fx.frames = s.fx.frames)
    _ out ?_ s ⟨rfl, rfl⟩
  rintro later reply - ⟨tables, frames⟩
  cases reply with
  | event recipient event => exact ⟨tables, frames⟩
  | mailed recipient bytes => exact ⟨tables, frames⟩
  | numeric code params text => exact ⟨tables, frames⟩
  | fail command code context text =>
    refine ⟨(Server.fail_toTables later id command code context text).trans tables, ?_⟩
    rw [Server.post, Server.fail]
    split <;> exact frames

/-- A message leaves the tables alone, and is passed on under the client's mask. -/
theorem messaged_sends (bridge : Bridge) (id : UInt64) (hooks : MessageHooks) (params : List String) (notice : Bool)
    (tags : Option String) :
    (bridge.messaged id hooks params notice tags).toTables = bridge.node.server.toTables ∧
      Sends bridge.node.server (bridge.messaged id hooks params notice tags)
        fun frame => frame.displaySource = some (bridge.node.server.entry id).hostmask := by
  obtain ⟨tables, frames⟩ := post_frames id (bridge.node.server.cmdMessage id hooks.host params notice tags).2
    (bridge.node.server.cmdMessage id hooks.host params notice tags).1
  exact ⟨tables.trans (Server.cmdMessageInner_toTables _ _ _ _ _ _ _),
    (Server.cmdMessage_sends _ id hooks params notice tags).trans (.of_frames frames)⟩

/-- A registered client holds the nick in its mask. -/
theorem holder_hostmask {t : Tables} {connected : List UInt64} (inv : LocalConsistent t connected)
    (valid : t.ValidNicks) {id : UInt64} (isOpen : id ∈ connected) (registered : (t.entry id).registered = true) :
    t.holder (some (t.entry id).hostmask) = some (t.localUid id) := by
  have occupied := (inv.occupies id isOpen (inv.registered id isOpen registered)).1
  have held : t.fold (t.entry id).nick ∈ t.clients := AList.lookup_isSome.mp (by rw [occupied]; rfl)
  have plain := valid.bang_notMem held
  have nick : beforeChar (t.entry id).hostmask '!' = (t.entry id).nick := by
    have unmarked : ∀ c ∈ (t.entry id).nick.toList, (c != '!') = true := by
      intro c member
      exact bne_iff_ne.mpr fun bang => plain (bang ▸ member)
    simp only [beforeChar, ClientEntry.hostmask, hostmask, String.toList_append, List.append_assoc]
    rw [List.takeWhile_append_of_pos unmarked]
    simp
  rw [Tables.holder, Option.bind_some, nick, Tables.uidOfNick, Tables.findClient, occupied]

theorem framesFor_sends {sid : String} {s s' : Server} {kind : LinkMessage → Prop} (sends : Sends s s' kind) :
    ∀ frame ∈ framesFor sid s s', kind frame := by
  obtain ⟨sent, frames, kinds⟩ := sends
  intro frame member
  rw [framesFor, frames, List.drop_left] at member
  obtain ⟨queued, inSent, rfl⟩ := List.mem_map.mp member
  exact kinds queued (List.mem_filter.mp inSent).1

/-- Local clients hold their nicks, waiting messages name whoever they are from and for, and so do the lines. -/
structure Sound (bridge : Bridge) : Prop where
  consistent : LocalConsistent bridge.node.server.toTables bridge.node.connected
  valid : bridge.node.server.ValidNicks
  waiting : ∀ queued ∈ bridge.waiting, queued.Resolves bridge.node.server.toTables
  written : ∀ written ∈ bridge.written, written.Attributed bridge.mapper

theorem Sound.step {sid : String} {peerCaps : List String} {bridge bridge' : Bridge} {action : BridgeAction}
    (sound : bridge.Sound) (steady : bridge.Steady action) (performed : bridge.Performs sid peerCaps bridge' action) :
    bridge'.Sound := by
  cases action with
  | session call next =>
    obtain ⟨called, rfl⟩ := performed
    refine ⟨SessionCall.perform_localConsistent sound.consistent called,
      sound.valid.kept (SessionCall.perform_keepsNicks called), fun queued member => ?_, sound.written⟩
    rcases List.mem_append.mp member with member | member
    · obtain ⟨author, addressee⟩ := sound.waiting queued member
      obtain ⟨sameAuthor, sameAddressee⟩ := steady queued member
      exact ⟨fun named => sameAuthor.trans (author named), fun named => sameAddressee.trans (addressee named)⟩
    · obtain ⟨frame, -, rfl⟩ := List.mem_map.mp member
      exact ⟨fun _ => rfl, fun _ => rfl⟩
  | message id hooks params notice tags =>
    obtain ⟨isOpen, registered, rfl⟩ := performed
    obtain ⟨tables, sends⟩ := bridge.messaged_sends id hooks params notice tags
    -- what a client says is queued under its own nick
    have own := holder_hostmask sound.consistent sound.valid isOpen registered
    have same : (bridge.spoken sid id hooks params notice tags).node.server.toTables = bridge.node.server.toTables :=
      tables
    refine ⟨?_, ?_, fun queued member => ?_, sound.written⟩
    · rw [same]
      exact sound.consistent
    · rw [same]
      exact sound.valid
    · rw [same]
      rcases List.mem_append.mp member with member | member
      · exact sound.waiting queued member
      · obtain ⟨frame, inFrames, rfl⟩ := List.mem_map.mp member
        refine ⟨fun _ => ?_, fun _ => rfl⟩
        rw [framesFor_sends sends frame inFrames]
        exact own
  | drain =>
    cases performed
    rw [drained]
    split
    · exact sound
    · rename_i queued rest waiting
      have resolves := sound.waiting queued (waiting ▸ List.mem_cons_self)
      have kept := bridge.node.server.encodeOutbound_extends bridge.mapper peerCaps queued.frame
      refine ⟨sound.consistent, sound.valid, fun other member => sound.waiting other ?_, fun written member => ?_⟩
      · exact waiting ▸ List.mem_cons_of_mem _ member
      · rcases List.mem_append.mp member with member | member
        · exact (sound.written written member).extends kept
        · obtain ⟨line, sent, rfl⟩ := List.mem_map.mp member
          exact Tables.encodeOutbound_attributed resolves bridge.mapper peerCaps sent

/-- As long as no step changes who holds a nick that a waiting message names, every line of a message carries the
identifiers of whoever sent it and of whom it was for. -/
theorem run_attributed {sid : String} {peerCaps : List String} {bridge : Bridge}
    (run : (machine sid peerCaps).GuardedRun Steady bridge) :
    ∀ written ∈ bridge.written, written.Attributed bridge.mapper := by
  have sound : bridge.Sound := by
    refine run.invariant (I := Sound) ?_ ?_
    · rintro bridge ⟨started, blank⟩
      rw [blank]
      have first : SessionCall.machine.Reachable bridge.node := .start started
      exact ⟨SessionCall.run_localConsistent first, SessionCall.run_validNicks first,
        fun _ member => absurd member List.not_mem_nil, fun _ member => absurd member List.not_mem_nil⟩
    · exact fun bridge action next sound steady performed => sound.step steady performed
  exact sound.written

/-! ### Two runs -/

/-- `alpha.example` with a TS6 link, and a user behind it. -/
def linkedAlpha : Server :=
  { Server.alpha with
    links := AList.singleton "9ZZ" ⟨"9ZZ", "zeta.example", "TS6 hub"⟩
    remoteUsers := AList.singleton "bobby" { betaUser "9ZZAAAAAB" "bobby" with serverSid := "9ZZ" }
    remoteByUid := AList.singleton "9ZZAAAAAB" "bobby" }

def connectedAlpha : Server :=
  linkedAlpha.connect "host.example"

def namedAlpha : Server :=
  connectedAlpha.cmdNick 1 "alice"

/-- `alice` is online. -/
def aliceBridge : Bridge :=
  ((({ node := ⟨linkedAlpha, []⟩ } : Bridge).sessioned "9ZZ" ⟨connectedAlpha, [1]⟩).sessioned "9ZZ"
    ⟨namedAlpha, [1]⟩).sessioned "9ZZ" ⟨namedAlpha.completeRegistration 1 "cloak.example", [1]⟩

theorem aliceBridge_run : (machine "9ZZ" ["EUID"]).GuardedRun Steady aliceBridge := by
  have unbanned : (namedAlpha.matchesKline (namedAlpha.entry 1).realHostmask).isSome = false := by decide
  have empty : ∀ bridge : Bridge, bridge.waiting = [] → ∀ call next, bridge.Steady (.session call next) := by
    intro bridge none call next queued member
    exact absurd (none ▸ member) List.not_mem_nil
  have started : (machine "9ZZ" ["EUID"]).GuardedRun Steady { node := ⟨linkedAlpha, []⟩ } :=
    .start ⟨⟨rfl, rfl, rfl⟩, rfl⟩
  have connected : (machine "9ZZ" ["EUID"]).GuardedRun Steady
      (({ node := ⟨linkedAlpha, []⟩ } : Bridge).sessioned "9ZZ" ⟨connectedAlpha, [1]⟩) :=
    .step (e := .session (.connect "host.example") ⟨connectedAlpha, [1]⟩) started (empty _ rfl _ _)
      ⟨⟨by decide, rfl⟩, rfl⟩
  have named : (machine "9ZZ" ["EUID"]).GuardedRun Steady
      ((({ node := ⟨linkedAlpha, []⟩ } : Bridge).sessioned "9ZZ" ⟨connectedAlpha, [1]⟩).sessioned "9ZZ"
        ⟨namedAlpha, [1]⟩) :=
    .step (e := .session (.cmdNick 1 "alice") ⟨namedAlpha, [1]⟩) connected (empty _ rfl _ _) ⟨⟨by decide, rfl⟩, rfl⟩
  have registered : SessionCall.Performs ⟨namedAlpha, [1]⟩ ⟨namedAlpha.completeRegistration 1 "cloak.example", [1]⟩
      (.completeRegistration 1 "cloak.example") := by
    refine ⟨by decide, by decide, ?_⟩
    simp only [unbanned, Bool.false_eq_true, if_false]
  exact .step (e := .session (.completeRegistration 1 "cloak.example") ⟨_, [1]⟩) named (empty _ rfl _ _)
    ⟨registered, rfl⟩

/-- She says something to the user behind the link. -/
def greetingBridge : Bridge :=
  aliceBridge.spoken "9ZZ" 1 .none ["bobby", "hello"] false none

/-- The greeting is written under her identifier. -/
theorem run_attributed_greeting :
    ((greetingBridge.drained ["EUID"]).drained ["EUID"]).written.length = 2 ∧
      ∀ written ∈ ((greetingBridge.drained ["EUID"]).drained ["EUID"]).written,
        written.Attributed ((greetingBridge.drained ["EUID"]).drained ["EUID"]).mapper := by
  refine ⟨by decide, @run_attributed "9ZZ" ["EUID"] _ ?_⟩
  exact .step (e := .drain) (.step (e := .drain) (.step (e := .message 1 .none ["bobby", "hello"] false none)
    aliceBridge_run trivial ⟨by decide, by decide, rfl⟩) trivial rfl) trivial rfl

/-- She changes her nick, and a new connection takes the old one. -/
def renamedAlpha : Server :=
  greetingBridge.node.server.cmdNick 1 "alicia"

def borrowedBridge : Bridge :=
  ((greetingBridge.sessioned "9ZZ" ⟨renamedAlpha, [1]⟩).sessioned "9ZZ"
    ⟨renamedAlpha.connect "other.example", [2, 1]⟩).sessioned "9ZZ"
    ⟨(renamedAlpha.connect "other.example").cmdNick 2 "alice", [2, 1]⟩

theorem borrowedBridge_run : (machine "9ZZ" ["EUID"]).Reachable borrowedBridge := by
  have greeted : (machine "9ZZ" ["EUID"]).Reachable greetingBridge :=
    .step (e := .message 1 .none ["bobby", "hello"] false none) aliceBridge_run.reachable trivial
      ⟨by decide, by decide, rfl⟩
  have renamed : (machine "9ZZ" ["EUID"]).Reachable (greetingBridge.sessioned "9ZZ" ⟨renamedAlpha, [1]⟩) :=
    .step (e := .session (.cmdNick 1 "alicia") ⟨_, [1]⟩) greeted trivial ⟨⟨by decide, rfl⟩, rfl⟩
  have joined : (machine "9ZZ" ["EUID"]).Reachable ((greetingBridge.sessioned "9ZZ" ⟨renamedAlpha, [1]⟩).sessioned "9ZZ"
      ⟨renamedAlpha.connect "other.example", [2, 1]⟩) :=
    .step (e := .session (.connect "other.example") ⟨_, [2, 1]⟩) renamed trivial ⟨⟨by decide, rfl⟩, rfl⟩
  exact .step (e := .session (.cmdNick 2 "alice") ⟨_, [2, 1]⟩) joined trivial ⟨⟨by decide, rfl⟩, rfl⟩

/-- The greeting that waited is written under the identifier of whoever has the nick now. -/
theorem borrowed_nick_misattributes :
    ¬ ∀ bridge, (machine "9ZZ" ["EUID"]).Reachable bridge →
      ∀ written ∈ bridge.written, written.Attributed bridge.mapper := by
  intro attributed
  have run : (machine "9ZZ" ["EUID"]).Reachable ((borrowedBridge.drained ["EUID"]).drained ["EUID"]) :=
    .step (e := .drain) (.step (e := .drain) borrowedBridge_run trivial rfl) trivial rfl
  have wrong : (⟨⟨.userMessage "alice!@cloak.example" "bobby" false (some "1AA-0000000000000001") (some 0) none "hello",
      some "1AA1", some "9ZZAAAAAB"⟩, utf8 ":1AAAAAAAB PRIVMSG 9ZZAAAAAB :hello\r\n"⟩ : Written) ∈
      ((borrowedBridge.drained ["EUID"]).drained ["EUID"]).written := by decide
  obtain ⟨author, addressee, src, dst, isAuthor, isAddressee, isSource, isTarget, line⟩ := attributed _ run _ wrong
  cases isAuthor
  cases isAddressee
  have own : ((borrowedBridge.drained ["EUID"]).drained ["EUID"]).mapper.identifier "1AA1" = some "1AAAAAAAA" := by
    decide
  have other : ((borrowedBridge.drained ["EUID"]).drained ["EUID"]).mapper.identifier "9ZZAAAAAB" =
      some "9ZZAAAAAB" := by decide
  cases own.symm.trans isSource
  cases other.symm.trans isTarget
  exact absurd line (by decide)

end Bridge

end Ferrixd
