import Ferrixd.WebSocket

/-! # The frames of the server

How a client reads them: the server does not mask, and writes a length in its shortest form. -/

namespace Ferrixd

/-- The longest payload there is: the first bit of a length is not set. -/
def maxPayload : Nat := 0x7fffffffffffffff

/-- A frame as the client reads it. -/
structure ServerFrame where
  fin : Bool
  opcode : UInt8
  payload : Bytes
  deriving DecidableEq

namespace ServerFrame

/-- The length of a payload, and what comes after it. -/
def readLength (code : UInt8) (bytes : Bytes) : Option (Nat × Bytes) :=
  if code < 126 then some (code.toNat, bytes)
  else if code = 126 then
    if bytes.length < 2 ∨ ofBigEndian (bytes.take 2) < 126 then none
    else some (ofBigEndian (bytes.take 2), bytes.drop 2)
  else
    if bytes.length < 8 ∨ ofBigEndian (bytes.take 8) < 65536 ∨ maxPayload < ofBigEndian (bytes.take 8) then none
    else some (ofBigEndian (bytes.take 8), bytes.drop 8)

/-- Read a frame, if there is a whole one. -/
def read? : Bytes → Option (ServerFrame × Bytes)
  | b0 :: b1 :: bytes =>
    -- no reserved bit may be set, and no mask bit
    if b0 &&& 0x70 ≠ 0 ∨ b1 &&& 0x80 ≠ 0 then none
    else (readLength (b1 &&& 0x7f) bytes).bind fun (length, bytes) =>
      if bytes.length < length then none
      else some (⟨b0 &&& 0x80 != 0, b0 &&& 0x0f, bytes.take length⟩, bytes.drop length)
  | _ => none

/-- Read frame after frame, so many at most, and leave what is not a frame. -/
def readUpTo : Nat → Bytes → List ServerFrame × Bytes
  | 0, bytes => ([], bytes)
  | count + 1, bytes =>
    match read? bytes with
    | some (frame, rest) => (frame :: (readUpTo count rest).1, (readUpTo count rest).2)
    | none => ([], bytes)

/-- Read all frames. -/
def readAll (bytes : Bytes) : List ServerFrame × Bytes :=
  readUpTo bytes.length bytes

/-- The opcodes that a server uses. -/
def serverOpcodes : List UInt8 :=
  [opText, opBinary, opClose, opPong]

/-! ## Reading back -/

theorem opcode_bits {opcode : UInt8} (known : opcode ∈ serverOpcodes) :
    (0x80 ||| opcode) &&& 0x70 = 0 ∧ ((0x80 ||| opcode) &&& 0x80 != 0) = true ∧ (0x80 ||| opcode) &&& 0x0f = opcode := by
  simp only [serverOpcodes, List.mem_cons, List.not_mem_nil, or_false] at known
  rcases known with rfl | rfl | rfl | rfl <;> decide

theorem length_bits : ∀ length < 128, UInt8.ofNat length &&& 0x80 = 0 ∧ UInt8.ofNat length &&& 0x7f = UInt8.ofNat length := by
  decide +kernel

/-- The length of a frame is read back, in each of its forms. -/
theorem readLength_written {length : Nat} (short : length ≤ maxPayload) (payload : Bytes) :
    ∃ code extension, (if length < 126 then [UInt8.ofNat length]
        else if length ≤ 65535 then 126 :: bigEndian 2 length else 127 :: bigEndian 8 length) = code :: extension ∧
      code &&& 0x80 = 0 ∧ readLength (code &&& 0x7f) (extension ++ payload) = some (length, payload) := by
  -- each of the three forms is refused for a length that a shorter one can hold
  by_cases one : length < 126
  · obtain ⟨unmasked, code⟩ := length_bits length (by omega)
    have value : (UInt8.ofNat length).toNat = length := Nat.mod_eq_of_lt (Nat.lt_trans one (by decide))
    have below : UInt8.ofNat length < 126 := by
      rw [UInt8.lt_iff_toNat_lt, value]
      exact one
    refine ⟨UInt8.ofNat length, [], if_pos one, unmasked, ?_⟩
    rw [code, readLength, if_pos below, value, List.nil_append]
  rw [if_neg one]
  by_cases two : length ≤ 65535
  · have size := length_bigEndian 2 length
    have taken : (bigEndian 2 length ++ payload).take 2 = bigEndian 2 length := List.take_left' size
    have value : ofBigEndian (bigEndian 2 length) = length := ofBigEndian_bigEndian (Nat.lt_succ_of_le two)
    have enough : ¬ ((bigEndian 2 length ++ payload).length < 2 ∨ length < 126) := by
      rw [List.length_append, size]
      omega
    refine ⟨126, bigEndian 2 length, if_pos two, by decide, ?_⟩
    have code : (126 : UInt8) &&& 0x7f = 126 := by decide
    rw [code, readLength, if_neg (by decide), if_pos rfl, taken, value, if_neg enough, List.drop_left' size]
  · have size := length_bigEndian 8 length
    have taken : (bigEndian 8 length ++ payload).take 8 = bigEndian 8 length := List.take_left' size
    have value : ofBigEndian (bigEndian 8 length) = length :=
      ofBigEndian_bigEndian (Nat.lt_of_le_of_lt short (by decide))
    have enough : ¬ ((bigEndian 8 length ++ payload).length < 8 ∨ length < 65536 ∨ maxPayload < length) := by
      rw [List.length_append, size]
      omega
    refine ⟨127, bigEndian 8 length, if_neg two, by decide, ?_⟩
    have code : (127 : UInt8) &&& 0x7f = 127 := by decide
    rw [code, readLength, if_neg (by decide), if_neg (by decide), taken, value, if_neg enough, List.drop_left' size]

/-- A frame of the server is read back, whatever comes after it. -/
theorem read?_serverFrame {opcode : UInt8} (known : opcode ∈ serverOpcodes) {payload : Bytes}
    (short : payload.length ≤ maxPayload) (rest : Bytes) :
    read? (WsStream.serverFrame opcode payload ++ rest) = some (⟨true, opcode, payload⟩, rest) := by
  obtain ⟨reserved, fin, same⟩ := opcode_bits known
  obtain ⟨code, extension, header, unmasked, read⟩ := readLength_written short (payload ++ rest)
  have wire : WsStream.serverFrame opcode payload ++ rest =
      (0x80 ||| opcode) :: code :: (extension ++ (payload ++ rest)) := by
    rw [WsStream.serverFrame, header]
    simp
  have enough : ¬ (payload ++ rest).length < payload.length := by
    rw [List.length_append]
    omega
  rw [wire, read?, if_neg (by rw [reserved, unmasked]; decide), read, Option.bind_some]
  dsimp only
  rw [if_neg enough, fin, same, List.take_left, List.drop_left]

/-- Frames in a row are read back, and nothing is left. -/
theorem readUpTo_serverFrames {frames : List (UInt8 × Bytes)} (known : ∀ frame ∈ frames, frame.1 ∈ serverOpcodes)
    (short : ∀ frame ∈ frames, frame.2.length ≤ maxPayload) {count : Nat} (enough : frames.length ≤ count) :
    readUpTo count (frames.flatMap fun frame => WsStream.serverFrame frame.1 frame.2) =
      (frames.map fun frame => ⟨true, frame.1, frame.2⟩, []) := by
  induction frames generalizing count with
  | nil => cases count <;> rfl
  | cons frame frames ih =>
    cases count with
    | zero => cases enough
    | succ count =>
      have later := ih (fun next member => known next (List.mem_cons_of_mem _ member))
        (fun next member => short next (List.mem_cons_of_mem _ member)) (Nat.le_of_succ_le_succ enough)
      rw [readUpTo, List.flatMap_cons,
        read?_serverFrame (known frame List.mem_cons_self) (short frame List.mem_cons_self)]
      dsimp only
      rw [later]
      rfl

theorem readAll_serverFrames {frames : List (UInt8 × Bytes)} (known : ∀ frame ∈ frames, frame.1 ∈ serverOpcodes)
    (short : ∀ frame ∈ frames, frame.2.length ≤ maxPayload) :
    readAll (frames.flatMap fun frame => WsStream.serverFrame frame.1 frame.2) =
      (frames.map fun frame => ⟨true, frame.1, frame.2⟩, []) := by
  refine readUpTo_serverFrames known short ?_
  -- a frame has a byte at least
  clear known short
  induction frames with
  | nil => exact Nat.le_refl 0
  | cons frame frames ih =>
    rw [List.flatMap_cons, List.length_append, List.length_cons, WsStream.serverFrame, List.length_append,
      List.length_append, List.length_singleton]
    omega

end ServerFrame

end Ferrixd
