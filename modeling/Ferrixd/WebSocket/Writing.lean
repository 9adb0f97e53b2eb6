import Ferrixd.WebSocket.Client
import Ferrixd.WebSocket.Reading

/-! # What the client gets

The server writes its lines in any pieces, while the reader polls and the socket takes what it likes.  The client
reads one message for each line that is not blank. -/

namespace Ferrixd

open WsStream (SocketRead Turn)

namespace WsStream

/-- The frames of some lines. -/
def lineFrames (binary : Bool) (lines : List Bytes) : List (UInt8 × Bytes) :=
  ((lines.map stripCr).filter (· ≠ [])).map fun payload => (if binary then opBinary else opText, payload)

theorem lineFrames_append (binary : Bool) (lines more : List Bytes) :
    lineFrames binary (lines ++ more) = lineFrames binary lines ++ lineFrames binary more := by
  rw [lineFrames, List.map_append, List.filter_append, List.map_append]
  rfl

end WsStream

/-- A new end of a stream changes only the lines from its last one on. -/
theorem splitOn_append_open {stream : Bytes} {done : List Bytes} {last : Bytes}
    (split : stream.splitOn newline = done ++ [last]) (more : Bytes) :
    (stream ++ more).splitOn newline = done ++ (last ++ more).splitOn newline := by
  induction stream using stream_induction generalizing done with
  | unfinished stream clean =>
    rw [List.splitOn_eq_singleton clean] at split
    cases done with
    | nil =>
      obtain ⟨rfl, -⟩ := List.cons.inj split
      rfl
    | cons line done =>
      have tooMany := congrArg List.length split
      rw [List.cons_append, List.length_cons, List.length_cons, List.length_append, List.length_singleton] at tooMany
      simp at tooMany
  | terminated line rest clean ih =>
    rw [splitOn_terminated clean] at split
    cases done with
    | nil =>
      have nothing : rest.splitOn newline = [] := (List.cons.inj split).2
      exact absurd nothing (List.splitOn_ne_nil _ _)
    | cons first done =>
      obtain ⟨same, rest_split⟩ := List.cons.inj split
      rw [List.append_assoc, List.cons_append, splitOn_terminated clean, ih rest_split, same]
      rfl

/-- Complete lines and an unfinished one are what a stream of them is split into. -/
theorem splitOn_complete {lines : List Bytes} (clean : ∀ line ∈ lines, newline ∉ line) {tail : Bytes}
    (unfinished : newline ∉ tail) :
    ((lines.flatMap fun line => line ++ [newline]) ++ tail).splitOn newline = lines ++ [tail] := by
  induction lines with
  | nil => exact List.splitOn_eq_singleton unfinished
  | cons line lines ih =>
    have later := ih fun next member => clean next (List.mem_cons_of_mem _ member)
    rw [List.flatMap_cons, List.append_assoc, List.append_assoc, List.singleton_append,
      splitOn_terminated (clean line List.mem_cons_self), later]
    rfl

namespace WsStream

/-- Lines are queued as their frames. -/
theorem foldl_queueLine (ws : WsStream) (lines : List Bytes) :
    lines.foldl queueLine ws = { ws with txRaw := ws.txRaw ++ Transport.serverWires (lineFrames ws.binary lines) } := by
  induction lines generalizing ws with
  | nil =>
    have nothing : ws.txRaw ++ [] = ws.txRaw := List.append_nil _
    show ws = { ws with txRaw := ws.txRaw ++ [] }
    rw [nothing]
  | cons line lines ih =>
    rw [List.foldl_cons, ih, queueLine]
    by_cases blank : stripCr line = []
    · rw [if_pos blank]
      have frames : lineFrames ws.binary (line :: lines) = lineFrames ws.binary lines := by
        simp [lineFrames, blank]
      rw [frames]
    · rw [if_neg blank]
      have frames : lineFrames ws.binary (line :: lines) =
          (if ws.binary then opBinary else opText, stripCr line) :: lineFrames ws.binary lines := by
        simp [lineFrames, blank]
      have first : ∀ later : List (UInt8 × Bytes), Transport.serverWires
          ((if ws.binary then opBinary else opText, stripCr line) :: later) =
            serverFrame (if ws.binary then opBinary else opText) (stripCr line) ++ Transport.serverWires later :=
        fun _ => List.flatMap_cons
      rw [frames, first, ← List.append_assoc]
      rfl

/-- What was written before the last newline is queued, and what comes after it is kept. -/
theorem write_split {ws : WsStream} {stream : Bytes} {done : List Bytes}
    (split : stream.splitOn newline = done ++ [ws.writeBuf]) (bytes : Bytes) :
    ∃ lines last, (stream ++ bytes).splitOn newline = done ++ lines ++ [last] ∧
      ws.write bytes = { ws with
        writeBuf := last
        txRaw := ws.txRaw ++ Transport.serverWires (lineFrames ws.binary lines) } := by
  have whole := splitOn_append_open split bytes
  obtain ⟨lines, last, pieces⟩ : ∃ lines last, (ws.writeBuf ++ bytes).splitOn newline = lines ++ [last] :=
    ⟨_, _, (List.dropLast_append_getLast (List.splitOn_ne_nil _ _)).symm⟩
  refine ⟨lines, last, by rw [whole, pieces, List.append_assoc], ?_⟩
  rw [write, queueOutLines]
  dsimp only
  rw [pieces, List.dropLast_concat, List.getLast?_concat, foldl_queueLine]
  rfl

/-! ## What else goes out -/

/-- The answer to a ping, or the frame that closes. -/
def IsControl (frame : UInt8 × Bytes) : Prop :=
  (frame.1 = opPong ∧ frame.2.length ≤ 125) ∨ (frame.1 = opClose ∧ frame.2.length = 2)

/-- Nothing is written but control frames. -/
structure Controls (ws later : WsStream) : Prop where
  binary : later.binary = ws.binary
  writeBuf : later.writeBuf = ws.writeBuf
  txRaw : ∃ out, later.txRaw = ws.txRaw ++ Transport.serverWires out ∧ ∀ frame ∈ out, IsControl frame

variable {ws between later : WsStream}

theorem Controls.of_same (binary : later.binary = ws.binary) (writeBuf : later.writeBuf = ws.writeBuf)
    (txRaw : later.txRaw = ws.txRaw) : Controls ws later :=
  ⟨binary, writeBuf, [], by rw [txRaw]; exact (List.append_nil _).symm, fun _ member => absurd member List.not_mem_nil⟩

theorem Controls.trans (first : Controls ws between) (second : Controls between later) : Controls ws later := by
  obtain ⟨out, told, control⟩ := first.txRaw
  obtain ⟨more, toldMore, controlMore⟩ := second.txRaw
  refine ⟨second.binary.trans first.binary, second.writeBuf.trans first.writeBuf, out ++ more, ?_, ?_⟩
  · rw [toldMore, told, Transport.serverWires_append, List.append_assoc]
  · intro frame member
    exact (List.mem_append.mp member).elim (control frame) (controlMore frame)

theorem Controls.pushFrame (ws : WsStream) {opcode : UInt8} {payload : Bytes} (control : IsControl (opcode, payload)) :
    Controls ws (ws.pushFrame opcode payload) := by
  refine ⟨rfl, rfl, [(opcode, payload)], ?_, ?_⟩
  · rw [WsStream.pushFrame, Transport.serverWires, List.flatMap_singleton]
  · intro frame member
    rw [List.mem_singleton.mp member]
    exact control

theorem Controls.beginClose (ws : WsStream) (code : Nat) : Controls ws (ws.beginClose code) := by
  rw [WsStream.beginClose]
  split
  · exact .of_same rfl rfl rfl
  · have control : IsControl (opClose, bigEndian 2 code) := .inr ⟨rfl, length_bigEndian 2 code⟩
    have closing := Controls.pushFrame { ws with closeSent := true } control
    exact ⟨closing.binary, closing.writeBuf, closing.txRaw⟩

theorem Controls.fail (ws : WsStream) : Controls ws ws.fail :=
  (Controls.beginClose ws 1002).trans (.of_same rfl rfl rfl)

theorem handleFrame_controls (ws : WsStream) (fin : Bool) (opcode : UInt8) (payload : Bytes) :
    Controls ws (ws.handleFrame fin opcode payload).1 := by
  rw [handleFrame]
  split
  · split
    · exact .of_same rfl rfl rfl
    split
    · exact .of_same rfl rfl rfl
    split <;> exact .of_same rfl rfl rfl
  split
  · split
    · exact .of_same rfl rfl rfl
    split <;> exact .of_same rfl rfl rfl
  split
  · split
    · exact .of_same rfl rfl rfl
    · -- a ping is answered with what it carries
      rename_i fits
      rw [Bool.or_eq_true, not_or] at fits
      exact .pushFrame ws (.inl ⟨rfl, Nat.le_of_not_lt fun long => fits.2 (decide_eq_true long)⟩)
  split
  · split <;> exact .of_same rfl rfl rfl
  split
  · exact .beginClose ws 1000
  · exact .of_same rfl rfl rfl

theorem decoded_controls (ws : WsStream) (read : SocketRead) (status : FrameStatus) :
    Controls ws (ws.decoded read status).1 := by
  cases status with
  | needMore =>
    cases read with
    | data bytes => cases bytes <;> exact .of_same rfl rfl rfl
    | pending => exact .of_same rfl rfl rfl
    | error => exact .of_same rfl rfl rfl
  | protocol => exact .fail ws
  | frame fin opcode payload =>
    have handled := ws.handleFrame_controls fin opcode payload
    rw [decoded]
    generalize ws.handleFrame fin opcode payload = outcome at handled
    obtain ⟨later, action⟩ := outcome
    cases action with
    | next => exact handled
    | eof => exact handled.trans (.of_same rfl rfl rfl)
    | error => exact handled.trans (.fail later)

theorem takeFrame_controls {outcome : FrameStatus × WsStream} (taken : ws.takeFrame = some outcome) :
    Controls ws outcome.2 := by
  obtain ⟨inside, same, consumed⟩ := ws.takeFrame_inside
  rw [taken] at same
  cases same
  obtain ⟨status, later⟩ := outcome
  cases status with
  | needMore =>
    cases consumed
    exact .of_same rfl rfl rfl
  | protocol =>
    cases consumed
    exact .of_same rfl rfl rfl
  | frame fin opcode payload =>
    obtain ⟨count, -, -, rfl⟩ := consumed
    exact .of_same rfl rfl rfl

/-- A turn writes control frames at most, behind what the socket has not taken. -/
theorem turn_controls {room accepts : Nat} {read : SocketRead} {outcome : WsStream × Turn}
    (taken : ws.turn room accepts read = some outcome) :
    Controls (if ws.Decodes room then ws.drain accepts else ws) outcome.1 := by
  rw [turn] at taken
  by_cases serves : ws.readBuf ≠ [] ∧ room ≠ 0
  · rw [if_pos serves] at taken
    cases taken
    -- decoded bytes are served before any frame is looked at
    have skips : ¬ ws.Decodes room := fun decodes => decodes.1.elim serves.1 serves.2
    rw [if_neg skips]
    exact .of_same rfl rfl rfl
  rw [if_neg serves] at taken
  by_cases eof : ws.readEof = true
  · rw [if_pos eof] at taken
    cases taken
    have skips : ¬ ws.Decodes room := fun decodes => Bool.false_ne_true (decodes.2.symm.trans eof)
    rw [if_neg skips]
    exact .of_same rfl rfl rfl
  have decodes : ws.Decodes room := by
    refine ⟨?_, Bool.eq_false_iff.mpr eof⟩
    by_contra both
    exact serves (not_or.mp both)
  rw [if_neg eof] at taken
  dsimp only at taken
  rw [if_pos decodes]
  split at taken
  · cases taken
    exact .of_same rfl rfl rfl
  · obtain ⟨status, frame, rfl⟩ := Option.map_eq_some_iff.mp taken
    exact (takeFrame_controls frame).trans (decoded_controls _ read _)

end WsStream

namespace Transport

/-! ## Runs -/

/-- The bytes that the server wrote, in order. -/
def written (events : List Event) : Bytes :=
  events.flatMap fun
    | .write bytes _ => bytes
    | _ => []

/-- Neither a turn of the decoder, which may answer the client, nor the end of the connection. -/
def OnlyWrites : Event → Prop
  | .turn _ _ | .shutdown _ => False
  | _ => True

/-- Whether a frame carries a line. -/
def isData (frame : UInt8 × Bytes) : Bool :=
  frame.1 = opText || frame.1 = opBinary

/-- The lines that are complete have gone out as frames, among the control frames, and the last line waits. -/
structure Told (events : List Event) (c : Transport) (done : List Bytes) (out : List (UInt8 × Bytes)) : Prop where
  split : (written events).splitOn newline = done ++ [c.ws.writeBuf]
  wires : c.sent ++ c.ws.txRaw = serverWires out
  lines : out.filter isData = WsStream.lineFrames c.ws.binary done
  kinds : ∀ frame ∈ out, isData frame = true ∨ WsStream.IsControl frame
  quiet : (∀ event ∈ events, OnlyWrites event) → out = WsStream.lineFrames c.ws.binary done

variable {c : Transport} {events : List Event} {done : List Bytes} {out : List (UInt8 × Bytes)}

theorem written_append (events : List Event) (event : Event) :
    written (events ++ [event]) = written events ++ written [event] :=
  List.flatMap_append

theorem isData_lineFrames {binary : Bool} {lines : List Bytes} {frame : UInt8 × Bytes}
    (member : frame ∈ WsStream.lineFrames binary lines) : isData frame = true := by
  obtain ⟨payload, -, rfl⟩ := List.mem_map.mp member
  cases binary <;> rfl

theorem not_isData_control {frame : UInt8 × Bytes} (control : WsStream.IsControl frame) : isData frame = false := by
  rcases control with ⟨pong, -⟩ | ⟨close, -⟩
  · rw [isData, pong]
    decide
  · rw [isData, close]
    decide

/-- What the socket takes is gone from what waits for it, and no more. -/
theorem drained_wires (c : Transport) (ws : WsStream) (accepts : Nat) :
    (c.drained ws accepts).sent ++ (c.drained ws accepts).ws.txRaw = c.sent ++ ws.txRaw := by
  show c.sent ++ ws.txRaw.take accepts ++ ws.txRaw.drop accepts = _
  rw [List.append_assoc, List.take_append_drop]

theorem came_sent (c : Transport) (room : Nat) (outcome : WsStream × Turn) :
    (c.came room outcome).ws = outcome.1 ∧ (c.came room outcome).sent = c.sent := by
  obtain ⟨ws, turn⟩ := outcome
  cases turn <;> exact ⟨rfl, rfl⟩

namespace Told

/-- It does not matter how much of what goes out the socket has taken. -/
theorem of_drained (told : c.Told events done out) (accepts : Nat) :
    (c.drained c.ws accepts).Told events done out :=
  ⟨told.split, (drained_wires c c.ws accepts).trans told.wires, told.lines, told.kinds, told.quiet⟩

/-- An event that writes no line, and perhaps control frames. -/
theorem controls {later : Transport} {event : Event} {ws : WsStream} (told : c.Told events done out)
    (controls : WsStream.Controls c.ws ws) (binary : later.ws.binary = ws.binary)
    (writeBuf : later.ws.writeBuf = ws.writeBuf) (wires : later.sent ++ later.ws.txRaw = c.sent ++ ws.txRaw)
    (silent : written [event] = []) (stays : OnlyWrites event → ws.txRaw = c.ws.txRaw) :
    ∃ done out, later.Told (events ++ [event]) done out := by
  obtain ⟨more, toldMore, control⟩ := controls.txRaw
  have same : later.ws.binary = c.ws.binary := binary.trans controls.binary
  -- what is queued besides lines are control frames
  have noData : more.filter isData = [] := by
    refine List.filter_eq_nil_iff.mpr fun frame member => ?_
    rw [not_isData_control (control frame member)]
    exact Bool.false_ne_true
  by_cases quiet : OnlyWrites event
  · refine ⟨done, out, ?_⟩
    constructor
    case split => rw [written_append, silent, List.append_nil, writeBuf, controls.writeBuf, told.split]
    case wires => rw [wires, stays quiet, told.wires]
    case lines => rw [same, told.lines]
    case kinds => exact told.kinds
    case quiet =>
      intro all
      rw [same]
      exact told.quiet fun other member => all other (List.mem_append_left _ member)
  · refine ⟨done, out ++ more, ?_⟩
    constructor
    case split => rw [written_append, silent, List.append_nil, writeBuf, controls.writeBuf, told.split]
    case wires => rw [wires, toldMore, ← List.append_assoc, told.wires, serverWires_append]
    case lines => rw [List.filter_append, told.lines, noData, List.append_nil, same]
    case kinds =>
      intro frame member
      exact (List.mem_append.mp member).elim (told.kinds frame) fun new => .inr (control frame new)
    case quiet => exact fun all => absurd (all event (List.mem_append_right _ (List.mem_singleton_self _))) quiet

/-- Bytes are written: the lines that they complete go out. -/
theorem wrote (told : c.Told events done out) (bytes : Bytes) (accepts : Nat) :
    ∃ done out, (c.drained (c.ws.write bytes) accepts).Told (events ++ [.write bytes accepts]) done out := by
  -- the write completes some lines, and the rest waits for the next one
  obtain ⟨lines, last, split, wrote⟩ := WsStream.write_split told.split bytes
  have stream : written (events ++ [.write bytes accepts]) = written events ++ bytes := by
    rw [written_append]
    simp [written]
  refine ⟨done ++ lines, out ++ WsStream.lineFrames c.ws.binary lines, ?_⟩
  have binary : (c.drained (c.ws.write bytes) accepts).ws.binary = c.ws.binary := by
    rw [wrote]
    rfl
  constructor
  case split =>
    rw [stream, split, wrote]
    rfl
  case wires =>
    rw [drained_wires, wrote]
    show c.sent ++ (c.ws.txRaw ++ serverWires (WsStream.lineFrames c.ws.binary lines)) = _
    rw [← List.append_assoc, told.wires, serverWires_append]
  case lines =>
    have all : (WsStream.lineFrames c.ws.binary lines).filter isData = WsStream.lineFrames c.ws.binary lines :=
      List.filter_eq_self.mpr fun frame member => isData_lineFrames member
    rw [List.filter_append, told.lines, all, binary, WsStream.lineFrames_append]
  case kinds =>
    intro frame member
    exact (List.mem_append.mp member).elim (told.kinds frame) fun new => .inl (isData_lineFrames new)
  case quiet =>
    intro all
    rw [binary, WsStream.lineFrames_append, told.quiet fun other member => all other (List.mem_append_left _ member)]

end Told

/-- In every run the complete lines have gone out, and the last one waits. -/
theorem run_told {maxMessage : Nat} (run : (machine maxMessage).Traced events c) : ∃ done out, c.Told events done out := by
  refine run.invariant (I := fun events c => ∃ done out, Told events c done out) ?_ ?_
  · rintro state ⟨binary, leftover, rfl⟩
    refine ⟨[], [], ?_⟩
    constructor
    case split => rfl
    case wires => rfl
    case lines => rfl
    case kinds => exact fun _ member => absurd member List.not_mem_nil
    case quiet => exact fun _ => rfl
  · rintro events state event next ⟨done, out, told⟩ step
    cases step with
    | poll room idle => exact told.controls (.of_same rfl rfl rfl) rfl rfl rfl rfl fun _ => rfl
    | @turn room accepts read outcome polls fits taken =>
      have controls := WsStream.turn_controls taken
      rw [turned]
      by_cases decodes : state.ws.Decodes room
      · rw [if_pos decodes] at controls ⊢
        obtain ⟨ws, sent⟩ := came_sent (state.drained state.ws accepts) room outcome
        exact (told.of_drained accepts).controls controls (by rw [ws]) (by rw [ws]) (by rw [ws, sent]) rfl
          fun quiet => quiet.elim
      · rw [if_neg decodes] at controls ⊢
        obtain ⟨ws, sent⟩ := came_sent state room outcome
        exact told.controls controls (by rw [ws]) (by rw [ws]) (by rw [ws, sent]) rfl fun quiet => quiet.elim
    | write bytes accepts idle => exact told.wrote bytes accepts
    | flush accepts idle =>
      exact told.controls (.of_same rfl rfl rfl) rfl rfl (drained_wires _ _ _) rfl fun _ => rfl
    | shutdown accepts idle =>
      exact told.controls (.beginClose _ 1000) rfl rfl (drained_wires _ _ _) rfl fun quiet => quiet.elim

/-! ## The client -/

/-- The messages for some lines: what is in front of each CR LF or LF, if there is anything. -/
def messages (opcode : UInt8) (lines : List Bytes) : List ServerFrame :=
  ((lines.map stripCr).filter (· ≠ [])).map fun payload => ⟨true, opcode, payload⟩

theorem length_stripCr_le (line : Bytes) : (stripCr line).length ≤ line.length := by
  rw [stripCr]
  split
  · exact Nat.le_trans (Nat.le_of_eq List.length_dropLast) (Nat.sub_le _ _)
  · exact Nat.le_refl _

/-- All frames are of kinds that the client knows, and not too long. -/
theorem Told.readable (told : c.Told events done out) (short : ∀ line ∈ done, line.length ≤ maxPayload) :
    ∀ frame ∈ out, frame.1 ∈ ServerFrame.serverOpcodes ∧ frame.2.length ≤ maxPayload := by
  intro frame member
  rcases told.kinds frame member with data | (⟨pong, small⟩ | ⟨close, two⟩)
  · have line : frame ∈ WsStream.lineFrames c.ws.binary done := by
      rw [← told.lines]
      exact List.mem_filter.mpr ⟨member, data⟩
    obtain ⟨payload, isLine, rfl⟩ := List.mem_map.mp line
    obtain ⟨raw, isDone, rfl⟩ := List.mem_map.mp (List.mem_filter.mp isLine).1
    refine ⟨?_, Nat.le_trans (length_stripCr_le raw) (short raw isDone)⟩
    show (if c.ws.binary then opBinary else opText) ∈ ServerFrame.serverOpcodes
    cases c.ws.binary <;> decide
  · rw [pong]
    exact ⟨by decide, Nat.le_trans small (by decide)⟩
  · rw [close, two]
    exact ⟨by decide, by decide⟩

/-- Whatever lines the server writes, in whatever pieces: the client reads one message for each line that is not
blank, in order and with nothing left over, among answers to what it sent itself, and an unfinished line waits. -/
theorem writes_exactly {maxMessage : Nat} (run : (machine maxMessage).Traced events c) {lines : List Bytes}
    {tail : Bytes} (clean : ∀ line ∈ lines, newline ∉ line) (unfinished : newline ∉ tail)
    (stream : written events = (lines.flatMap fun line => line ++ [newline]) ++ tail)
    (short : ∀ line ∈ lines, line.length ≤ maxPayload) :
    c.ws.writeBuf = tail ∧
      ∃ frames, ServerFrame.readAll (c.sent ++ c.ws.txRaw) = (frames, []) ∧
        frames.filter (fun frame => frame.opcode = opText || frame.opcode = opBinary) =
          messages (if c.ws.binary then opBinary else opText) lines ∧
        ((∀ event ∈ events, OnlyWrites event) →
          frames = messages (if c.ws.binary then opBinary else opText) lines) := by
  obtain ⟨done, out, told⟩ := run_told run
  have split := told.split
  rw [stream, splitOn_complete clean unfinished] at split
  obtain ⟨rfl, last⟩ := List.append_inj' split rfl
  -- a line within the bound is a frame that the client reads
  have readable := told.readable short
  have read := ServerFrame.readAll_serverFrames (fun frame member => (readable frame member).1)
    (fun frame member => (readable frame member).2)
  have sameFrames : ∀ frames, frames = WsStream.lineFrames c.ws.binary lines →
      (frames.map fun frame => (⟨true, frame.1, frame.2⟩ : ServerFrame)) =
        messages (if c.ws.binary then opBinary else opText) lines := by
    intro frames same
    rw [same, WsStream.lineFrames, messages, List.map_map]
    rfl
  refine ⟨(List.singleton_inj.mp last).symm, out.map fun frame => ⟨true, frame.1, frame.2⟩, ?_, ?_, ?_⟩
  · rw [told.wires]
    exact read
  · rw [List.filter_map]
    exact sameFrames _ told.lines
  · exact fun quiet => sameFrames _ (told.quiet quiet)

/-- `hi` is written in two pieces, the CR in one and the LF in the other, and then an unfinished line. -/
def hello : List Event :=
  [.write [0x68, 0x69, carriageReturn] 1, .write [newline, 0x79] 2]

/-- One byte is taken after each write. -/
def helloed : Transport :=
  let begun : Transport := { ws := { binary := false, maxMessage := 512 } }
  let first := begun.drained (begun.ws.write [0x68, 0x69, carriageReturn]) 1
  first.drained (first.ws.write [newline, 0x79]) 2

theorem hello_run : (machine 512).Traced hello helloed := by
  have begun : (machine 512).Traced [] { ws := { binary := false, maxMessage := 512 } } := .start ⟨false, [], rfl⟩
  exact (begun.step (.write [0x68, 0x69, carriageReturn] 1 rfl)).step (.write [newline, 0x79] 2 rfl)

theorem writes_exactly_hello :
    helloed.ws.writeBuf = [0x79] ∧
      ServerFrame.readAll (helloed.sent ++ helloed.ws.txRaw) = ([⟨true, opText, [0x68, 0x69]⟩], []) := by
  have stream : written hello = ([[0x68, 0x69, carriageReturn]].flatMap fun line => line ++ [newline]) ++ [0x79] := by
    decide
  obtain ⟨waits, frames, read, -, exactly⟩ := writes_exactly hello_run (by decide) (by decide) stream (by decide)
  refine ⟨waits, ?_⟩
  rw [read, exactly ?_]
  · decide +kernel
  · intro event member
    rcases List.mem_cons.mp member with same | member
    · rw [same]
      trivial
    · rw [List.mem_singleton.mp member]
      trivial

end Transport

end Ferrixd
