import Ferrixd.Codec
import Ferrixd.Data.BigEndian

/-! # The WebSocket transport

A client sends lines as messages, cut into masked frames.  They are decoded as the bytes arrive and handed to the
reader as lines; what goes out is encoded and waits for the socket. -/

namespace Ferrixd

def opContinuation : UInt8 := 0x0
def opText : UInt8 := 0x1
def opBinary : UInt8 := 0x2
def opClose : UInt8 := 0x8
def opPing : UInt8 := 0x9
def opPong : UInt8 := 0xa

/-- How many bytes are read from the socket at once. -/
def readChunk : Nat := 8 * 1024

/-- How many encoded bytes may wait for the socket. -/
def maxTxBuffer : Nat := 1024 * 1024

/-- A connection that speaks WebSocket frames on the wire and lines to the server. -/
structure WsStream where
  binary : Bool
  maxMessage : Nat
  /-- Read from the socket and not yet decoded. -/
  rxRaw : Bytes := []
  /-- Decoded and waiting for the reader. -/
  readBuf : Bytes := []
  readEof : Bool := false
  fragOpcode : Option UInt8 := none
  fragBuf : Bytes := []
  writeBuf : Bytes := []
  /-- Encoded and waiting for the socket. -/
  txRaw : Bytes := []
  closeSent : Bool := false

/-- The result of trying to decode one frame. -/
inductive FrameStatus where
  | needMore
  | protocol
  | frame (fin : Bool) (opcode : UInt8) (payload : Bytes)

/-- What to do after a frame was handled. -/
inductive FrameAction where
  | next
  | eof
  | error

/-- The bytes from one index to another; `none` if they are not all there. -/
def WsStream.slice (bytes : Bytes) (start stop : Nat) : Option Bytes :=
  if start ≤ stop ∧ stop ≤ bytes.length then some ((bytes.take stop).drop start) else none

/-- Every byte with the byte of the mask that is due. -/
def applyMask (mask payload : Bytes) : Bytes :=
  payload.mapIdx fun i byte => byte ^^^ mask.getD (i % 4) 0

namespace WsStream

variable (ws : WsStream)

/-! ## Decoding -/

/-- Where the mask of a frame starts and how long its payload is, or why this cannot be said. -/
def header (len7 : UInt8) : Option (Except FrameStatus (Nat × Nat)) :=
  if len7 < 126 then some (.ok (2, len7.toNat))
  else if len7 = 126 then
    if ws.rxRaw.length < 4 then some (.error .needMore)
    else (slice ws.rxRaw 2 4).map fun bytes => .ok (4, ofBigEndian bytes)
  else
    if ws.rxRaw.length < 10 then some (.error .needMore)
    else (slice ws.rxRaw 2 10).map fun bytes =>
      if ws.maxMessage < ofBigEndian bytes then .error .protocol else .ok (10, ofBigEndian bytes)

/-- Take the mask and the payload of a frame; `none` is an index outside the buffer. -/
def takePayload (fin : Bool) (opcode : UInt8) (offset payloadLen : Nat) : Option (FrameStatus × WsStream) :=
  if ws.rxRaw.length < offset + 4 then some (.needMore, ws)
  else (slice ws.rxRaw offset (offset + 4)).bind fun mask =>
    if ws.rxRaw.length < offset + 4 + payloadLen then some (.needMore, ws)
    else (slice ws.rxRaw (offset + 4) (offset + 4 + payloadLen)).map fun masked =>
      (.frame fin opcode (applyMask mask masked), { ws with rxRaw := ws.rxRaw.drop (offset + 4 + payloadLen) })

/-- Try to decode one frame. -/
def takeFrame : Option (FrameStatus × WsStream) :=
  if ws.rxRaw.length < 2 then some (.needMore, ws)
  else ws.rxRaw[0]?.bind fun b0 => ws.rxRaw[1]?.bind fun b1 =>
    if b0 &&& 0x70 ≠ 0 then some (.protocol, ws)
    else (ws.header (b1 &&& 0x7f)).bind fun
      | .error status => some (status, ws)
      | .ok (offset, payloadLen) =>
        if ws.maxMessage < payloadLen then some (.protocol, ws)
        else if b1 &&& 0x80 = 0 then some (.protocol, ws)
        else ws.takePayload (b0 &&& 0x80 != 0) (b0 &&& 0x0f) offset payloadLen

/-- Hand a message to the reader as one line. -/
def deliver (message : Bytes) : WsStream :=
  { ws with readBuf := ws.readBuf ++ message ++ [carriageReturn, newline] }

/-- An unmasked frame of the server. -/
def serverFrame (opcode : UInt8) (payload : Bytes) : Bytes :=
  [0x80 ||| opcode] ++
    (if payload.length < 126 then [UInt8.ofNat payload.length]
      else if payload.length ≤ 65535 then 126 :: bigEndian 2 payload.length
      else 127 :: bigEndian 8 payload.length) ++ payload

def pushFrame (opcode : UInt8) (payload : Bytes) : WsStream :=
  { ws with txRaw := ws.txRaw ++ serverFrame opcode payload }

/-- Queue a close frame, once. -/
def beginClose (code : Nat) : WsStream :=
  if ws.closeSent then ws else { ws with closeSent := true }.pushFrame opClose (bigEndian 2 code)

def handleFrame (fin : Bool) (opcode : UInt8) (payload : Bytes) : WsStream × FrameAction :=
  if opcode = opContinuation then
    -- the next part of a message that has begun
    if ws.fragOpcode.isNone then (ws, .error)
    else if ws.maxMessage < ws.fragBuf.length + payload.length then (ws, .error)
    else if fin then
      ({ ws with fragOpcode := none, fragBuf := [] }.deliver (ws.fragBuf ++ payload), .next)
    else ({ ws with fragBuf := ws.fragBuf ++ payload }, .next)
  else if opcode = opText ∨ opcode = opBinary then
    -- a new message may not begin before the last one is complete
    if ws.fragOpcode.isSome then (ws, .error)
    else if fin then (ws.deliver payload, .next)
    else ({ ws with fragOpcode := some opcode, fragBuf := payload }, .next)
  else if opcode = opPing then
    if !fin || 125 < payload.length then (ws, .error) else (ws.pushFrame opPong payload, .next)
  else if opcode = opPong then
    if !fin || 125 < payload.length then (ws, .error) else (ws, .next)
  else if opcode = opClose then (ws.beginClose 1000, .eof)
  else (ws, .error)

/-! ## Encoding -/

/-- Encode one line, without its newline; a blank one is not sent. -/
def queueLine (line : Bytes) : WsStream :=
  if stripCr line = [] then ws else ws.pushFrame (if ws.binary then opBinary else opText) (stripCr line)

/-- Encode every complete line of what was written. -/
def queueOutLines : WsStream :=
  let pieces := ws.writeBuf.splitOn newline
  { pieces.dropLast.foldl queueLine ws with writeBuf := pieces.getLast?.getD [] }

/-- Write bytes. -/
def write (bytes : Bytes) : WsStream :=
  { ws with writeBuf := ws.writeBuf ++ bytes }.queueOutLines

/-- The socket takes so many of the bytes that wait for it. -/
def drain (accepts : Nat) : WsStream :=
  { ws with txRaw := ws.txRaw.drop accepts }

/-! ## Reading -/

/-- What the socket has to read: no bytes are its end. -/
inductive SocketRead where
  | data (bytes : Bytes)
  | pending
  | error

/-- What a turn of the loop of a poll comes to: a frame has been taken or bytes have been read and there is another
turn, or the poll is over. -/
inductive Turn where
  | framed
  | read (bytes : Bytes)
  | ready (bytes : Bytes)
  | pending
  | error

/-- Close because the client has broken the protocol. -/
def fail : WsStream :=
  { ws.beginClose 1002 with readEof := true }

/-- What is done with a frame, or without one. -/
def decoded (read : SocketRead) : FrameStatus → WsStream × Turn
  | .frame fin opcode payload =>
    match ws.handleFrame fin opcode payload with
    | (ws, .next) => (ws, .framed)
    | (ws, .eof) => ({ ws with readEof := true }, .ready [])
    | (ws, .error) => (ws.fail, .ready [])
  | .protocol => (ws.fail, .ready [])
  | .needMore =>
    match read with
    -- an empty read is the end of the stream
    | .data [] => ({ ws with readEof := true }, .ready [])
    | .data (first :: rest) => ({ ws with rxRaw := ws.rxRaw ++ first :: rest }, .read (first :: rest))
    | .error => (ws, .error)
    | .pending => (ws, .pending)

/-- The decoder has its turn, and not the reader's buffer: it has no room or there is nothing for it. -/
def Decodes (room : Nat) : Prop :=
  (ws.readBuf = [] ∨ room = 0) ∧ ws.readEof = false

instance (room : Nat) : Decidable (ws.Decodes room) :=
  inferInstanceAs (Decidable (_ ∧ _))

/-- One turn of the loop of a poll, when the reader's buffer has some room, the socket takes some bytes of what waits
for it and has something to read. -/
def turn (room accepts : Nat) (read : SocketRead) : Option (WsStream × Turn) :=
  if ws.readBuf ≠ [] ∧ room ≠ 0 then
    some ({ ws with readBuf := ws.readBuf.drop room }, .ready (ws.readBuf.take room))
  else if ws.readEof then some (ws, .ready [])
  else
    -- answers to pings pile up when the client only sends and never reads
    let ws := ws.drain accepts
    if maxTxBuffer < ws.txRaw.length then some ({ ws with readEof := true }, .error)
    else ws.takeFrame.map fun (status, ws) => ws.decoded read status

end WsStream

end Ferrixd
