import Ferrixd.WebSocket.Frames

/-! # Messages in frames

A client cuts its messages into frames as it likes, with pings and pongs between them and inside them.  The frames of
a stream are handled as the messages that they carry. -/

namespace Ferrixd

/-- The frames of a stream carry these messages and these pings, when so much of the first message came before. -/
inductive Conveys : Option Bytes → List ClientFrame → List Bytes → List Bytes → Prop where
  | nil : Conveys none [] [] []
  | whole {frame : ClientFrame} {frames : List ClientFrame} {messages pings : List Bytes} (fin : frame.fin = true)
      (data : frame.opcode = opText ∨ frame.opcode = opBinary) (rest : Conveys none frames messages pings) :
      Conveys none (frame :: frames) (frame.payload :: messages) pings
  | first {frame : ClientFrame} {frames : List ClientFrame} {messages pings : List Bytes} (fin : frame.fin = false)
      (data : frame.opcode = opText ∨ frame.opcode = opBinary)
      (rest : Conveys (some frame.payload) frames messages pings) :
      Conveys none (frame :: frames) messages pings
  | middle {frame : ClientFrame} {frames : List ClientFrame} {messages pings : List Bytes} {part : Bytes}
      (fin : frame.fin = false) (continues : frame.opcode = opContinuation)
      (rest : Conveys (some (part ++ frame.payload)) frames messages pings) :
      Conveys (some part) (frame :: frames) messages pings
  | last {frame : ClientFrame} {frames : List ClientFrame} {messages pings : List Bytes} {part : Bytes}
      (fin : frame.fin = true) (continues : frame.opcode = opContinuation)
      (rest : Conveys none frames messages pings) :
      Conveys (some part) (frame :: frames) ((part ++ frame.payload) :: messages) pings
  | ping {frame : ClientFrame} {frames : List ClientFrame} {messages pings : List Bytes} {part : Option Bytes}
      (fin : frame.fin = true) (isPing : frame.opcode = opPing) (short : frame.payload.length ≤ 125)
      (rest : Conveys part frames messages pings) :
      Conveys part (frame :: frames) messages (frame.payload :: pings)
  | pong {frame : ClientFrame} {frames : List ClientFrame} {messages pings : List Bytes} {part : Option Bytes}
      (fin : frame.fin = true) (isPong : frame.opcode = opPong) (short : frame.payload.length ≤ 125)
      (rest : Conveys part frames messages pings) :
      Conveys part (frame :: frames) messages pings

/-- No ping or pong is longer than a message may be. -/
def ControlsFit (maxMessage : Nat) (frames : List ClientFrame) : Prop :=
  ∀ frame ∈ frames, frame.opcode = opPing ∨ frame.opcode = opPong → frame.payload.length ≤ maxMessage

namespace Conveys

variable {part : Option Bytes} {frame : ClientFrame} {frames : List ClientFrame} {messages pings : List Bytes}

/-- What came before of a message is no longer than the message. -/
theorem part_le (conveys : Conveys part frames messages pings) {maxMessage : Nat}
    (short : ∀ message ∈ messages, message.length ≤ maxMessage) : ∀ begun ∈ part, begun.length ≤ maxMessage := by
  induction conveys with
  | nil => exact fun begun isPart => by cases isPart
  | whole => exact fun begun isPart => by cases isPart
  | first => exact fun begun isPart => by cases isPart
  | middle fin continues rest ih =>
    intro begun isPart
    cases isPart
    have longer := ih short _ rfl
    rw [List.length_append] at longer
    omega
  | last fin continues rest ih =>
    intro begun isPart
    cases isPart
    have longer := short _ List.mem_cons_self
    rw [List.length_append] at longer
    omega
  | ping _ _ _ _ ih => exact ih short
  | pong _ _ _ _ ih => exact ih short

/-- Every frame is one that the decoder takes. -/
theorem frame_taken (conveys : Conveys part (frame :: frames) messages pings) {maxMessage : Nat}
    (short : ∀ message ∈ messages, message.length ≤ maxMessage) (control : ControlsFit maxMessage (frame :: frames)) :
    frame.opcode ∈ clientOpcodes ∧ frame.payload.length ≤ maxMessage := by
  cases conveys with
  | whole fin data rest =>
    refine ⟨?_, short _ List.mem_cons_self⟩
    rcases data with same | same <;> rw [same] <;> decide
  | first fin data rest =>
    refine ⟨?_, rest.part_le short _ rfl⟩
    rcases data with same | same <;> rw [same] <;> decide
  | middle fin continues rest =>
    have longer := rest.part_le short _ rfl
    rw [List.length_append] at longer
    exact ⟨by rw [continues]; decide, by omega⟩
  | last fin continues rest =>
    have longer := short _ List.mem_cons_self
    rw [List.length_append] at longer
    exact ⟨by rw [continues]; decide, by omega⟩
  | ping fin isPing few rest => exact ⟨by rw [isPing]; decide, control _ List.mem_cons_self (.inl isPing)⟩
  | pong fin isPong few rest => exact ⟨by rw [isPong]; decide, control _ List.mem_cons_self (.inr isPong)⟩

end Conveys

/-- A message as the reader gets it. -/
def ended (message : Bytes) : Bytes :=
  message ++ [carriageReturn, newline]

namespace WsStream

variable {ws : WsStream}

/-- So much of a message is waiting for the rest of it. -/
def Begun (ws : WsStream) : Option Bytes → Prop
  | none => ws.fragOpcode.isNone = true
  | some part => ws.fragOpcode.isNone = false ∧ ws.fragBuf = part

theorem Begun.not_isSome (begun : ws.Begun none) : ¬ ws.fragOpcode.isSome = true := by
  rw [Option.isNone_iff_eq_none.mp begun]
  exact Bool.false_ne_true

/-- Some messages have been handed on and some pings answered, and that is all. -/
structure Handled (ws later : WsStream) (messages pings : List Bytes) : Prop where
  maxMessage : later.maxMessage = ws.maxMessage
  rxRaw : later.rxRaw = ws.rxRaw
  readEof : later.readEof = ws.readEof
  readBuf : later.readBuf = ws.readBuf ++ messages.flatMap ended
  txRaw : later.txRaw = ws.txRaw ++ pings.flatMap (serverFrame opPong)

theorem Handled.nothing {later : WsStream} (maxMessage : later.maxMessage = ws.maxMessage)
    (rxRaw : later.rxRaw = ws.rxRaw) (readEof : later.readEof = ws.readEof) (readBuf : later.readBuf = ws.readBuf)
    (txRaw : later.txRaw = ws.txRaw) : Handled ws later [] [] :=
  ⟨maxMessage, rxRaw, readEof, readBuf.trans (List.append_nil _).symm, txRaw.trans (List.append_nil _).symm⟩

theorem Handled.delivered (ws : WsStream) (message : Bytes) : Handled ws (ws.deliver message) [message] [] := by
  refine ⟨rfl, rfl, rfl, ?_, (List.append_nil _).symm⟩
  rw [deliver, List.flatMap_singleton, ended, List.append_assoc]

/-- A frame of a stream is handled as what it carries. -/
theorem handleFrame_conveys {part : Option Bytes} {frame : ClientFrame} {frames : List ClientFrame}
    {messages pings : List Bytes} (begun : ws.Begun part) (conveys : Conveys part (frame :: frames) messages pings)
    (short : ∀ message ∈ messages, message.length ≤ ws.maxMessage) :
    ∃ later after newMessages messagesLeft newPings pingsLeft,
      ws.handleFrame frame.fin frame.opcode frame.payload = (later, .next) ∧ later.Begun after ∧
        Conveys after frames messagesLeft pingsLeft ∧ messages = newMessages ++ messagesLeft ∧
        pings = newPings ++ pingsLeft ∧ Handled ws later newMessages newPings := by
  cases conveys with
  | whole fin data rest =>
    have isData : frame.opcode ≠ opContinuation := by rcases data with same | same <;> rw [same] <;> decide
    refine ⟨_, none, [frame.payload], _, [], _, ?_, ?_, rest, rfl, rfl, .delivered ws frame.payload⟩
    · rw [handleFrame, if_neg isData, if_pos data, if_neg begun.not_isSome, fin, if_pos rfl]
    · exact begun
  | first fin data rest =>
    have isData : frame.opcode ≠ opContinuation := by rcases data with same | same <;> rw [same] <;> decide
    refine ⟨{ ws with fragOpcode := some frame.opcode, fragBuf := frame.payload }, some frame.payload, [], _, [], _, ?_,
      ⟨rfl, rfl⟩, rest, rfl, rfl, .nothing rfl rfl rfl rfl rfl⟩
    rw [handleFrame, if_neg isData, if_pos data, if_neg begun.not_isSome, fin, if_neg Bool.false_ne_true]
  | middle fin continues rest =>
    obtain ⟨started, rfl⟩ := begun
    -- all that has come of the message is part of it, and so no longer than it
    have room : ¬ ws.maxMessage < ws.fragBuf.length + frame.payload.length := by
      have fits := rest.part_le short _ rfl
      rw [List.length_append] at fits
      exact Nat.not_lt.mpr fits
    refine ⟨{ ws with fragBuf := ws.fragBuf ++ frame.payload }, some (ws.fragBuf ++ frame.payload), [], _, [], _, ?_,
      ⟨started, rfl⟩, rest, rfl, rfl, .nothing rfl rfl rfl rfl rfl⟩
    rw [handleFrame, if_pos continues, if_neg (Bool.eq_false_iff.mp started), if_neg room, fin, if_neg Bool.false_ne_true]
  | last fin continues rest =>
    obtain ⟨started, rfl⟩ := begun
    have room : ¬ ws.maxMessage < ws.fragBuf.length + frame.payload.length := by
      have fits := short _ List.mem_cons_self
      rw [List.length_append] at fits
      exact Nat.not_lt.mpr fits
    have delivered := Handled.delivered { ws with fragOpcode := none, fragBuf := [] } (ws.fragBuf ++ frame.payload)
    refine ⟨{ ws with fragOpcode := none, fragBuf := [] }.deliver (ws.fragBuf ++ frame.payload), none,
      [ws.fragBuf ++ frame.payload], _, [], _, ?_, ?_, rest, rfl, rfl,
      ⟨rfl, rfl, rfl, delivered.readBuf, delivered.txRaw⟩⟩
    · rw [handleFrame, if_pos continues, if_neg (Bool.eq_false_iff.mp started), if_neg room, fin, if_pos rfl]
    · exact Option.isNone_none
  | ping fin isPing few rest =>
    refine ⟨ws.pushFrame opPong frame.payload, part, [], _, [frame.payload], _, ?_, ?_, rest, rfl, rfl,
      ⟨rfl, rfl, rfl, (List.append_nil _).symm, ?_⟩⟩
    · rw [handleFrame, isPing, if_neg (by decide), if_neg (by decide), if_pos rfl, fin, if_neg (by simpa using few)]
    · cases part <;> exact begun
    · rw [pushFrame, List.flatMap_singleton]
  | pong fin isPong few rest =>
    refine ⟨ws, part, [], _, [], _, ?_, begun, rest, rfl, rfl, .nothing rfl rfl rfl rfl rfl⟩
    rw [handleFrame, isPong, if_neg (by decide), if_neg (by decide), if_neg (by decide), if_pos rfl, fin,
      if_neg (by simpa using few)]

end WsStream

end Ferrixd
