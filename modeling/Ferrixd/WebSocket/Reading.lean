import Ferrixd.Codec.Segments
import Ferrixd.Data.Machine
import Ferrixd.WebSocket.Messages

/-! # What the reader gets

The reader polls with buffers of any size, the bytes arrive in any segments, and meanwhile the server writes and the
socket takes what it likes.  The reader gets the messages of the client, line by line. -/

namespace Ferrixd

open WsStream (SocketRead Turn)

/-- A connection, with what has gone through it so far. -/
structure Transport where
  ws : WsStream
  /-- The reader polls, and its buffer has so much room. -/
  polling : Option Nat := none
  /-- What the socket has given, what the reader has got, and what the socket has taken. -/
  received : Bytes := []
  handed : Bytes := []
  sent : Bytes := []
  /-- The reader had room in its last poll and got nothing. -/
  starved : Bool := false

namespace Transport

/-- The reader polls, a poll has its turns, and between two polls the server writes, flushes or shuts down. -/
inductive Event where
  | poll (room : Nat)
  | turn (accepts : Nat) (read : SocketRead)
  | write (bytes : Bytes) (accepts : Nat)
  | flush (accepts : Nat)
  | shutdown (accepts : Nat)

/-- What is read at once is not more than the buffer for it. -/
def Fits : SocketRead → Prop
  | .data bytes => bytes.length ≤ readChunk
  | _ => True

variable (c : Transport)

/-- The socket takes some of what waits for it. -/
def drained (ws : WsStream) (accepts : Nat) : Transport :=
  { c with ws := ws.drain accepts, sent := c.sent ++ ws.txRaw.take accepts }

/-- What a turn comes to, for the poll and for the reader. -/
def came (room : Nat) (outcome : WsStream × Turn) : Transport :=
  let c := { c with ws := outcome.1 }
  match outcome.2 with
  | .framed => c
  | .read bytes => { c with received := c.received ++ bytes }
  | .ready bytes => { c with polling := none, handed := c.handed ++ bytes, starved := bytes = [] ∧ room ≠ 0 }
  | .pending => { c with polling := none, starved := room ≠ 0 }
  | .error => { c with polling := none }

/-- A turn of a poll; the socket takes something if the decoder has its turn. -/
def turned (room accepts : Nat) (outcome : WsStream × Turn) : Transport :=
  (if c.ws.Decodes room then c.drained c.ws accepts else c).came room outcome

inductive Step : Transport → Event → Transport → Prop where
  | poll {c : Transport} (room : Nat) (idle : c.polling = none) :
      Step c (.poll room) { c with polling := some room, starved := false }
  | turn {c : Transport} {room accepts : Nat} {read : SocketRead} {outcome : WsStream × Turn}
      (polls : c.polling = some room) (fits : Fits read) (taken : c.ws.turn room accepts read = some outcome) :
      Step c (.turn accepts read) (c.turned room accepts outcome)
  | write {c : Transport} (bytes : Bytes) (accepts : Nat) (idle : c.polling = none) :
      Step c (.write bytes accepts) (c.drained (c.ws.write bytes) accepts)
  | flush {c : Transport} (accepts : Nat) (idle : c.polling = none) :
      Step c (.flush accepts) (c.drained c.ws accepts)
  | shutdown {c : Transport} (accepts : Nat) (idle : c.polling = none) :
      Step c (.shutdown accepts) (c.drained (c.ws.beginClose 1000) accepts)

/-- A connection begins when the handshake is over, with the bytes that came after it. -/
def machine (maxMessage : Nat) : Machine Transport Event where
  start c := ∃ binary leftover, c = { ws := { binary, maxMessage, rxRaw := leftover }, received := leftover }
  step := Step

/-- Not more waits for the socket than may wait, when a poll looks at it. -/
def Roomy (c : Transport) : Event → Prop
  | .turn accepts _ => ∀ room ∈ c.polling, c.ws.Decodes room → (c.ws.drain accepts).txRaw.length ≤ maxTxBuffer
  | _ => True

/-- The bytes of some frames. -/
def wires (frames : List ClientFrame) : Bytes :=
  frames.flatMap ClientFrame.wire

/-- The bytes of some frames of the server. -/
def serverWires (frames : List (UInt8 × Bytes)) : Bytes :=
  frames.flatMap fun frame => WsStream.serverFrame frame.1 frame.2

/-- The payloads of the pongs among some frames. -/
def pongs (frames : List (UInt8 × Bytes)) : List Bytes :=
  (frames.filter fun frame => frame.1 = opPong).map Prod.snd

/-! ## How far a stream has been decoded -/

/-- Some frames of the stream have been handled and the others not. -/
structure ReadsTo (c : Transport) (done left : List ClientFrame) (part : Option Bytes)
    (handled messagesLeft answered pingsLeft : List Bytes) : Prop where
  begun : c.ws.Begun part
  conveys : Conveys part left messagesLeft pingsLeft
  received : c.received = wires done ++ c.ws.rxRaw
  handed : c.handed ++ c.ws.readBuf = handled.flatMap ended
  sent : ∃ out, c.sent ++ c.ws.txRaw = serverWires out ∧ pongs out = answered
  waits : c.ws.readEof = true ∨ c.starved = true → ∀ frame ∈ left.head?, c.ws.rxRaw.length < frame.wire.length
  starved : c.starved = true → c.ws.readBuf = []

/-- What has come of a stream has been decoded as far as can be. -/
def Reads (frames : List ClientFrame) (messages pings : List Bytes) (c : Transport) : Prop :=
  ∃ done left part handled messagesLeft answered pingsLeft, frames = done ++ left ∧
    messages = handled ++ messagesLeft ∧ pings = answered ++ pingsLeft ∧
    c.ReadsTo done left part handled messagesLeft answered pingsLeft

variable {c : Transport}

/-! ## What the server writes -/

/-- Only what goes out is more than before, and it holds no pong. -/
structure Talks (ws later : WsStream) : Prop where
  maxMessage : later.maxMessage = ws.maxMessage
  rxRaw : later.rxRaw = ws.rxRaw
  readBuf : later.readBuf = ws.readBuf
  readEof : later.readEof = ws.readEof
  fragOpcode : later.fragOpcode = ws.fragOpcode
  fragBuf : later.fragBuf = ws.fragBuf
  txRaw : ∃ out, later.txRaw = ws.txRaw ++ serverWires out ∧ pongs out = []

theorem Talks.refl (ws : WsStream) : Talks ws ws :=
  ⟨rfl, rfl, rfl, rfl, rfl, rfl, [], (List.append_nil _).symm, rfl⟩

theorem wires_append (frames more : List ClientFrame) : wires (frames ++ more) = wires frames ++ wires more :=
  List.flatMap_append

theorem serverWires_append (out more : List (UInt8 × Bytes)) :
    serverWires (out ++ more) = serverWires out ++ serverWires more :=
  List.flatMap_append

theorem pongs_append (out more : List (UInt8 × Bytes)) : pongs (out ++ more) = pongs out ++ pongs more := by
  rw [pongs, List.filter_append, List.map_append]
  rfl

theorem pongs_answers (pings : List Bytes) : pongs (pings.map fun payload => (opPong, payload)) = pings := by
  induction pings with
  | nil => rfl
  | cons payload pings ih =>
    change payload :: pongs (pings.map fun payload => (opPong, payload)) = payload :: pings
    rw [ih]

theorem Talks.trans {ws between later : WsStream} (first : Talks ws between) (second : Talks between later) :
    Talks ws later := by
  obtain ⟨out, told, silent⟩ := first.txRaw
  obtain ⟨more, toldMore, silentMore⟩ := second.txRaw
  refine ⟨second.maxMessage.trans first.maxMessage, second.rxRaw.trans first.rxRaw,
    second.readBuf.trans first.readBuf, second.readEof.trans first.readEof,
    second.fragOpcode.trans first.fragOpcode, second.fragBuf.trans first.fragBuf, out ++ more, ?_, ?_⟩
  · rw [toldMore, told, serverWires_append, List.append_assoc]
  · rw [pongs_append, silent, silentMore]
    rfl

theorem Talks.pushFrame (ws : WsStream) {opcode : UInt8} (noPong : opcode ≠ opPong) (payload : Bytes) :
    Talks ws (ws.pushFrame opcode payload) := by
  refine ⟨rfl, rfl, rfl, rfl, rfl, rfl, [(opcode, payload)], ?_, ?_⟩
  · rw [WsStream.pushFrame, serverWires, List.flatMap_singleton]
  · simp [pongs, noPong]

theorem Talks.beginClose (ws : WsStream) (code : Nat) : Talks ws (ws.beginClose code) := by
  rw [WsStream.beginClose]
  split
  · exact .refl ws
  · obtain ⟨-, -, -, -, -, -, told⟩ := Talks.pushFrame { ws with closeSent := true } (by decide : opClose ≠ opPong)
      (bigEndian 2 code)
    exact ⟨rfl, rfl, rfl, rfl, rfl, rfl, told⟩

theorem Talks.write (ws : WsStream) (bytes : Bytes) : Talks ws (ws.write bytes) := by
  have lines := foldl_invariant (I := Talks ws) WsStream.queueLine
    ((ws.writeBuf ++ bytes).splitOn newline).dropLast (fun later line _ talks => talks.trans ?_)
    { ws with writeBuf := ws.writeBuf ++ bytes } ⟨rfl, rfl, rfl, rfl, rfl, rfl, (Talks.refl ws).txRaw⟩
  · exact ⟨lines.maxMessage, lines.rxRaw, lines.readBuf, lines.readEof, lines.fragOpcode, lines.fragBuf, lines.txRaw⟩
  · rw [WsStream.queueLine]
    split
    · exact .refl later
    · refine .pushFrame later ?_ _
      split <;> decide

namespace ReadsTo

variable {done left : List ClientFrame} {part : Option Bytes} {handled messagesLeft answered pingsLeft : List Bytes}

/-- What the server writes and the socket takes is nothing to the reader. -/
theorem drained (reads : c.ReadsTo done left part handled messagesLeft answered pingsLeft) {later : WsStream}
    (talks : Talks c.ws later) (accepts : Nat) :
    (c.drained later accepts).ReadsTo done left part handled messagesLeft answered pingsLeft := by
  obtain ⟨out, told, answers⟩ := reads.sent
  obtain ⟨more, wrote, silent⟩ := talks.txRaw
  constructor
  · have begun := reads.begun
    cases part with
    | none => exact (congrArg Option.isNone talks.fragOpcode).trans begun
    | some part => exact ⟨(congrArg Option.isNone talks.fragOpcode).trans begun.1, talks.fragBuf.trans begun.2⟩
  · exact reads.conveys
  · exact reads.received.trans (congrArg (wires done ++ ·) talks.rxRaw.symm)
  · exact (congrArg (c.handed ++ ·) talks.readBuf).trans reads.handed
  · refine ⟨out ++ more, ?_, ?_⟩
    · change c.sent ++ later.txRaw.take accepts ++ later.txRaw.drop accepts = _
      rw [List.append_assoc, List.take_append_drop, wrote, ← List.append_assoc, told, serverWires_append]
    · rw [pongs_append, silent, List.append_nil, answers]
  · intro stuck frame isNext
    have waits := reads.waits (stuck.imp_left fun eof => talks.readEof.symm.trans eof) frame isNext
    change later.rxRaw.length < _
    rwa [talks.rxRaw]
  · exact fun starved => talks.readBuf.trans (reads.starved starved)

/-- The reader takes what is there. -/
theorem served (reads : c.ReadsTo done left part handled messagesLeft answered pingsLeft) {room : Nat}
    (serves : c.ws.readBuf ≠ [] ∧ room ≠ 0) :
    (c.came room ({ c.ws with readBuf := c.ws.readBuf.drop room }, .ready (c.ws.readBuf.take room))).ReadsTo
      done left part handled messagesLeft answered pingsLeft := by
  -- what is taken is not empty, so that the reader is not starved
  have something : ¬ (c.ws.readBuf.take room = [] ∧ room ≠ 0) := fun nothing =>
    (List.take_eq_nil_iff.mp nothing.1).elim serves.2 serves.1
  refine ⟨?_, reads.conveys, reads.received, ?_, reads.sent, ?_, ?_⟩
  · cases part <;> exact reads.begun
  · change c.handed ++ c.ws.readBuf.take room ++ c.ws.readBuf.drop room = _
    rw [List.append_assoc, List.take_append_drop]
    exact reads.handed
  · rintro (eof | starved)
    · exact reads.waits (.inl eof)
    · exact absurd (of_decide_eq_true starved) something
  · exact fun starved => absurd (of_decide_eq_true starved) something

/-- The part of the stream that has arrived since the last frame that was handled. -/
theorem arrived (reads : c.ReadsTo done left part handled messagesLeft answered pingsLeft)
    (stream : c.received <+: wires (done ++ left)) : c.ws.rxRaw <+: wires left := by
  rw [reads.received, wires_append] at stream
  exact (List.prefix_append_right_inj _).mp stream

/-- The decoder waits for the rest of the next frame or takes it. -/
theorem decodes (reads : c.ReadsTo done left part handled messagesLeft answered pingsLeft)
    (stream : c.received <+: wires (done ++ left)) (short : ∀ message ∈ messagesLeft, message.length ≤ c.ws.maxMessage)
    (control : ControlsFit c.ws.maxMessage left) :
    (c.ws.takeFrame = some (.needMore, c.ws) ∧ ∀ frame ∈ left.head?, c.ws.rxRaw.length < frame.wire.length) ∨
      ∃ frame rest more, left = frame :: rest ∧ c.ws.rxRaw = frame.wire ++ more ∧
        c.ws.takeFrame = some (.frame frame.fin frame.opcode frame.payload, { c.ws with rxRaw := more }) := by
  obtain ⟨missing, same⟩ := reads.arrived stream
  cases left with
  | nil =>
    have empty : c.ws.rxRaw = [] := (List.append_eq_nil_iff.mp same).1
    refine .inl ⟨?_, fun frame isNext => by cases isNext⟩
    rw [WsStream.takeFrame, empty]
    exact if_pos (by decide)
  | cons frame rest =>
    obtain ⟨known, fits⟩ := reads.conveys.frame_taken short control
    obtain ⟨incomplete, waits⟩ | ⟨more, buffer, -, taken⟩ := WsStream.takeFrame_arrived known fits same
    · refine .inl ⟨waits, fun next isNext => ?_⟩
      cases isNext
      exact incomplete
    · exact .inr ⟨frame, rest, more, rfl, buffer, taken⟩

/-- The next frame is handled. -/
theorem framed {frame : ClientFrame} {rest : List ClientFrame} {more : Bytes}
    (reads : c.ReadsTo done (frame :: rest) part handled messagesLeft answered pingsLeft)
    (short : ∀ message ∈ messagesLeft, message.length ≤ c.ws.maxMessage) (buffer : c.ws.rxRaw = frame.wire ++ more)
    (opened : c.ws.readEof = false) (busy : c.starved = false) (room : Nat) (read : SocketRead) :
    ∃ later after newMessages messagesLeft' newPings pingsLeft',
      { c.ws with rxRaw := more }.decoded read (.frame frame.fin frame.opcode frame.payload) = (later, .framed) ∧
        later.maxMessage = c.ws.maxMessage ∧ messagesLeft = newMessages ++ messagesLeft' ∧
        pingsLeft = newPings ++ pingsLeft' ∧
        (c.came room (later, .framed)).ReadsTo (done ++ [frame]) rest after (handled ++ newMessages) messagesLeft'
          (answered ++ newPings) pingsLeft' := by
  have begun : WsStream.Begun { c.ws with rxRaw := more } part := by
    cases part <;> exact reads.begun
  -- what the frame says is handed over at once, and what it asks for is queued
  obtain ⟨later, after, newMessages, messagesLeft', newPings, pingsLeft', handles, begun', conveys', messages, pings,
    result⟩ := WsStream.handleFrame_conveys begun reads.conveys short
  refine ⟨later, after, newMessages, messagesLeft', newPings, pingsLeft', ?_, result.maxMessage, messages, pings,
    begun', conveys', ?_, ?_, ?_, ?_, ?_⟩
  · rw [WsStream.decoded, handles]
  · change c.received = wires (done ++ [frame]) ++ later.rxRaw
    rw [reads.received, buffer, result.rxRaw, wires_append, wires, wires, List.flatMap_singleton, List.append_assoc]
  · change c.handed ++ later.readBuf = _
    rw [result.readBuf, ← List.append_assoc, reads.handed, List.flatMap_append]
  · obtain ⟨out, told, answers⟩ := reads.sent
    have wrote : newPings.flatMap (WsStream.serverFrame opPong) =
        serverWires (newPings.map fun payload => (opPong, payload)) := by
      rw [serverWires, List.flatMap_map]
    refine ⟨out ++ newPings.map fun payload => (opPong, payload), ?_, ?_⟩
    · change c.sent ++ later.txRaw = _
      rw [result.txRaw, ← List.append_assoc, told, serverWires_append, wrote]
    · rw [pongs_append, answers, pongs_answers]
  · rintro (eof | starved)
    · have same : later.readEof = c.ws.readEof := result.readEof
      rw [show later.readEof = true from eof, opened] at same
      cases same
    · exact absurd (busy.symm.trans starved) Bool.false_ne_true
  · exact fun starved => absurd (busy.symm.trans starved) Bool.false_ne_true

/-- The next frame is incomplete, and the socket is asked for more. -/
theorem asked (reads : c.ReadsTo done left part handled messagesLeft answered pingsLeft)
    (incomplete : ∀ frame ∈ left.head?, c.ws.rxRaw.length < frame.wire.length) {room : Nat}
    (decodes : c.ws.Decodes room) (busy : c.starved = false) (read : SocketRead) :
    (c.came room (c.ws.decoded read .needMore)).ReadsTo done left part handled messagesLeft answered pingsLeft := by
  -- the decoder has its turn only if there is nothing for the reader or no room
  have idle : decide (room ≠ 0) = true → c.ws.readBuf = [] := fun hasRoom =>
    decodes.1.resolve_right (of_decide_eq_true hasRoom)
  have quiet : ¬ (c.ws.readEof = true ∨ c.starved = true) := by
    rw [decodes.2, busy]
    simp
  cases read with
  | data bytes =>
    cases bytes with
    | nil =>
      refine ⟨?_, reads.conveys, reads.received, ?_, reads.sent, fun _ => incomplete, fun starved => ?_⟩
      · cases part <;> exact reads.begun
      · exact (congrArg (· ++ c.ws.readBuf) (List.append_nil c.handed)).trans reads.handed
      · have hasRoom : ([] : Bytes) = [] ∧ room ≠ 0 := of_decide_eq_true starved
        exact idle (decide_eq_true hasRoom.2)
    | cons first rest =>
      refine ⟨?_, reads.conveys, ?_, reads.handed, reads.sent, fun stuck => absurd stuck quiet,
        fun starved => absurd (.inr starved) quiet⟩
      · cases part <;> exact reads.begun
      · change c.received ++ first :: rest = wires done ++ (c.ws.rxRaw ++ first :: rest)
        rw [reads.received, List.append_assoc]
  | pending =>
    refine ⟨?_, reads.conveys, reads.received, reads.handed, reads.sent, fun _ => incomplete, idle⟩
    cases part <;> exact reads.begun
  | error =>
    refine ⟨?_, reads.conveys, reads.received, reads.handed, reads.sent, fun _ => incomplete,
      fun starved => absurd (.inr starved) quiet⟩
    cases part <;> exact reads.begun

/-- Nothing is read after the end. -/
theorem closed (reads : c.ReadsTo done left part handled messagesLeft answered pingsLeft) {room : Nat}
    (serves : ¬ (c.ws.readBuf ≠ [] ∧ room ≠ 0)) (eof : c.ws.readEof = true) :
    (c.came room (c.ws, .ready [])).ReadsTo done left part handled messagesLeft answered pingsLeft := by
  refine ⟨reads.begun, reads.conveys, reads.received, ?_, reads.sent, fun _ => reads.waits (.inl eof),
    fun starved => ?_⟩
  · exact (congrArg (· ++ c.ws.readBuf) (List.append_nil c.handed)).trans reads.handed
  · have hasRoom : ([] : Bytes) = [] ∧ room ≠ 0 := of_decide_eq_true starved
    by_contra something
    exact serves ⟨something, hasRoom.2⟩

end ReadsTo

/-! ## Runs -/

variable {maxMessage : Nat} {frames : List ClientFrame} {messages pings : List Bytes}

/-- While the reader polls it is not starved, and what has come of the stream is decoded as far as can be. -/
structure Sound (maxMessage : Nat) (frames : List ClientFrame) (messages pings : List Bytes) (c : Transport) :
    Prop where
  busy : c.polling.isSome = true → c.starved = false
  reads : c.received <+: wires frames → c.ws.maxMessage = maxMessage ∧ c.Reads frames messages pings

theorem Sound.start (conveys : Conveys none frames messages pings) (binary : Bool) (leftover : Bytes) :
    Sound maxMessage frames messages pings
      { ws := { binary, maxMessage, rxRaw := leftover }, received := leftover } := by
  refine ⟨fun _ => rfl, fun _ => ⟨rfl, ?_⟩⟩
  refine ⟨[], frames, none, [], messages, [], pings, rfl, rfl, rfl, rfl, conveys, rfl, rfl, ⟨[], rfl, rfl⟩, ?_, ?_⟩
  · rintro (eof | starved)
    · cases eof
    · cases starved
  · exact fun starved => by cases starved

theorem Sound.talks (sound : Sound maxMessage frames messages pings c) {later : WsStream} (talks : Talks c.ws later)
    (accepts : Nat) : Sound maxMessage frames messages pings (c.drained later accepts) := by
  refine ⟨sound.busy, fun stream => ?_⟩
  obtain ⟨limit, done, left, part, handled, messagesLeft, answered, pingsLeft, split, first, second, reads⟩ :=
    sound.reads stream
  exact ⟨talks.maxMessage.trans limit, done, left, part, handled, messagesLeft, answered, pingsLeft, split, first,
    second, reads.drained talks accepts⟩

theorem Sound.polled (sound : Sound maxMessage frames messages pings c) (room : Nat) :
    Sound maxMessage frames messages pings { c with polling := some room, starved := false } := by
  refine ⟨fun _ => rfl, fun stream => ?_⟩
  obtain ⟨limit, done, left, part, handled, messagesLeft, answered, pingsLeft, split, first, second, reads⟩ :=
    sound.reads stream
  refine ⟨limit, done, left, part, handled, messagesLeft, answered, pingsLeft, split, first, second, reads.begun,
    reads.conveys, reads.received, reads.handed, reads.sent, ?_, fun starved => by cases starved⟩
  rintro (eof | starved)
  · exact reads.waits (.inl eof)
  · cases starved

theorem came_busy (quiet : c.starved = false) (room : Nat) (outcome : WsStream × Turn)
    (polls : (c.came room outcome).polling.isSome = true) : (c.came room outcome).starved = false := by
  obtain ⟨later, turn⟩ := outcome
  cases turn with
  | framed => exact quiet
  | read bytes => exact quiet
  | ready bytes => cases polls
  | pending => cases polls
  | error => cases polls

theorem ws_came (room : Nat) (outcome : WsStream × Turn) : (c.came room outcome).ws = outcome.1 := by
  obtain ⟨later, turn⟩ := outcome
  cases turn <;> rfl

theorem maxMessage_waiting (ws : WsStream) (read : SocketRead) :
    (ws.decoded read .needMore).1.maxMessage = ws.maxMessage := by
  cases read with
  | data bytes => cases bytes <;> rfl
  | pending => rfl
  | error => rfl

theorem received_came (room : Nat) (outcome : WsStream × Turn) : c.received <+: (c.came room outcome).received := by
  obtain ⟨later, turn⟩ := outcome
  cases turn with
  | read bytes => exact List.prefix_append _ _
  | framed => exact List.prefix_rfl
  | ready bytes => exact List.prefix_rfl
  | pending => exact List.prefix_rfl
  | error => exact List.prefix_rfl

/-- The decoder has its turn. -/
theorem Sound.decoded (sound : Sound maxMessage frames messages pings c)
    (short : ∀ message ∈ messages, message.length ≤ maxMessage) (control : ControlsFit maxMessage frames)
    (quiet : c.starved = false) {room : Nat} (decodes : c.ws.Decodes room) {read : SocketRead}
    {outcome : WsStream × Turn}
    (taken : (c.ws.takeFrame.map fun (status, ws) => ws.decoded read status) = some outcome) :
    Sound maxMessage frames messages pings (c.came room outcome) := by
  refine ⟨came_busy quiet room outcome, fun stream => ?_⟩
  have before : c.received <+: wires frames := (received_came room outcome).trans stream
  obtain ⟨limit, done, left, part, handled, messagesLeft, answered, pingsLeft, rfl, rfl, rfl, reads⟩ :=
    sound.reads before
  have shortLeft : ∀ message ∈ messagesLeft, message.length ≤ c.ws.maxMessage := fun message member =>
    limit ▸ short message (List.mem_append_right _ member)
  have controlLeft : ControlsFit c.ws.maxMessage left := fun frame member =>
    limit ▸ control frame (List.mem_append_right _ member)
  obtain ⟨waits, incomplete⟩ | ⟨frame, rest, more, rfl, buffer, takes⟩ :=
    reads.decodes before shortLeft controlLeft
  · -- the next frame is incomplete, and the socket is read
    rw [waits, Option.map_some] at taken
    cases taken
    refine ⟨?_, done, left, part, handled, messagesLeft, answered, pingsLeft, rfl, rfl, rfl,
      reads.asked incomplete decodes quiet read⟩
    rw [ws_came, maxMessage_waiting]
    exact limit
  · -- a frame is there, and it is the next one of the stream
    rw [takes, Option.map_some] at taken
    replace taken := Option.some.inj taken
    dsimp only at taken
    obtain ⟨later, after, newMessages, messagesLeft', newPings, pingsLeft', handles, limit', rfl, rfl, reads'⟩ :=
      reads.framed shortLeft buffer decodes.2 quiet room read
    rw [← taken, handles]
    exact ⟨limit'.trans limit, done ++ [frame], rest, after, handled ++ newMessages, messagesLeft', answered ++ newPings,
      pingsLeft', by rw [List.append_assoc]; rfl, by rw [List.append_assoc], by rw [List.append_assoc], reads'⟩

/-- A turn of a poll. -/
theorem Sound.turned (sound : Sound maxMessage frames messages pings c)
    (short : ∀ message ∈ messages, message.length ≤ maxMessage) (control : ControlsFit maxMessage frames)
    {room accepts : Nat} {read : SocketRead} (polls : c.polling = some room) (roomy : c.Roomy (.turn accepts read))
    {outcome : WsStream × Turn} (taken : c.ws.turn room accepts read = some outcome) :
    Sound maxMessage frames messages pings (c.turned room accepts outcome) := by
  have quiet : c.starved = false := sound.busy (by rw [polls]; rfl)
  rw [WsStream.turn] at taken
  -- the reader takes what is there, or the connection is over, or the decoder has its turn
  by_cases serves : c.ws.readBuf ≠ [] ∧ room ≠ 0
  · rw [if_pos serves] at taken
    cases taken
    have skips : ¬ c.ws.Decodes room := fun decodes => decodes.1.elim serves.1 serves.2
    rw [Transport.turned, if_neg skips]
    refine ⟨came_busy quiet room _, fun stream => ?_⟩
    obtain ⟨limit, done, left, part, handled, messagesLeft, answered, pingsLeft, split, first, second, reads⟩ :=
      sound.reads stream
    exact ⟨limit, done, left, part, handled, messagesLeft, answered, pingsLeft, split, first, second,
      reads.served serves⟩
  rw [if_neg serves] at taken
  by_cases eof : c.ws.readEof = true
  · rw [if_pos eof] at taken
    cases taken
    have skips : ¬ c.ws.Decodes room := fun decodes => Bool.false_ne_true (decodes.2.symm.trans eof)
    rw [Transport.turned, if_neg skips]
    refine ⟨came_busy quiet room _, fun stream => ?_⟩
    obtain ⟨limit, done, left, part, handled, messagesLeft, answered, pingsLeft, split, first, second, reads⟩ :=
      sound.reads stream
    exact ⟨limit, done, left, part, handled, messagesLeft, answered, pingsLeft, split, first, second,
      reads.closed serves eof⟩
  have decodes : c.ws.Decodes room := by
    refine ⟨?_, Bool.eq_false_iff.mpr eof⟩
    by_contra both
    exact serves (not_or.mp both)
  rw [if_neg eof] at taken
  dsimp only at taken
  -- not too much waits for the socket
  rw [if_neg (Nat.not_lt.mpr (roomy room (by rw [polls]; rfl) decodes))] at taken
  rw [Transport.turned, if_pos decodes]
  exact (sound.talks (.refl c.ws) accepts).decoded short control quiet decodes taken

/-- `hi` in one frame. -/
def greeting : ClientFrame where
  fin := true
  opcode := opText
  mask := [0x37, 0xfa, 0x21, 0x3d]
  form := .short
  payload := [0x68, 0x69]
  fourBytes := rfl
  fits := by
    change 2 < 126
    decide

/-- The frame has come right after the handshake. -/
def greeted : Transport where
  ws := { binary := false, maxMessage := 512, rxRaw := wires [greeting] }
  received := wires [greeting]

/-- The reader polls, and the frame is taken. -/
def taken : Transport where
  ws := { binary := false, maxMessage := 512, readBuf := ended [0x68, 0x69] }
  polling := some 512
  received := wires [greeting]

/-- The reader has got the message, and the next poll got nothing. -/
def served : Transport where
  ws := { binary := false, maxMessage := 512 }
  received := wires [greeting]
  handed := ended [0x68, 0x69]
  starved := true

/-- A line of the server. -/
def line : Bytes :=
  List.replicate 510 0x41 ++ [carriageReturn, newline]

def lineFrame : Bytes :=
  WsStream.serverFrame opText (List.replicate 510 0x41)

/-- The server has written so many lines, and the client has read none. -/
def waiting (count : Nat) : Transport :=
  { greeted with ws := { greeted.ws with txRaw := (List.replicate count lineFrame).flatten } }

/-- A ping of one byte. -/
def ping : ClientFrame where
  fin := true
  opcode := opPing
  mask := [0x37, 0xfa, 0x21, 0x3d]
  form := .short
  payload := [0x41]
  fourBytes := rfl
  fits := by
    change 1 < 126
    decide

/-- Messages may have no byte, and the ping has one. -/
def pinged : Transport where
  ws := { binary := false, maxMessage := 0, rxRaw := wires [ping] }
  received := wires [ping]

/-- The ping breaks the protocol. -/
def refused : Transport :=
  { pinged with ws := pinged.ws.fail, starved := true }

theorem refused_run : (machine 0).GuardedRun Roomy refused := by
  have started : (machine 0).GuardedRun Roomy pinged := .start ⟨false, wires [ping], rfl⟩
  have polled : (machine 0).GuardedRun Roomy { pinged with polling := some 512 } :=
    started.step (e := .poll 512) trivial (.poll 512 rfl)
  refine polled.step (e := .turn 0 .pending) ?_ (@Step.turn _ 512 0 .pending (pinged.ws.fail, .ready []) rfl trivial rfl)
  intro room isRoom _
  cases isRoom
  decide +kernel

end Transport

end Ferrixd
