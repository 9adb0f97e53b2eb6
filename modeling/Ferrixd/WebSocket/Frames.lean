import Ferrixd.WebSocket

/-! # The frames of a client

What a client writes on the wire is what is decoded, however much of it has arrived.  Whatever else arrives, the
decoder stays inside its buffer and gets ahead, asks for more or closes. -/

namespace Ferrixd

/-! ## Any bytes -/

namespace WsStream

variable {ws : WsStream}

theorem slice_inside {bytes : Bytes} {start stop : Nat} (ordered : start ≤ stop) (inside : stop ≤ bytes.length) :
    slice bytes start stop = some ((bytes.take stop).drop start) :=
  if_pos ⟨ordered, inside⟩

/-- A header that was read: too short, refused, or the mask starts after it. -/
theorem header_inside (ws : WsStream) (len7 : UInt8) :
    ws.header len7 = some (.error .needMore) ∨ ws.header len7 = some (.error .protocol) ∨
      ∃ offset payloadLen, ws.header len7 = some (.ok (offset, payloadLen)) ∧ 2 ≤ offset := by
  rw [header]
  split
  · exact .inr (.inr ⟨2, _, rfl, Nat.le_refl 2⟩)
  split
  · split
    · exact .inl rfl
    · rename_i enough
      rw [slice_inside (by decide) (Nat.le_of_not_lt enough), Option.map_some]
      exact .inr (.inr ⟨4, _, rfl, by decide⟩)
  · split
    · exact .inl rfl
    · rename_i enough
      rw [slice_inside (by decide) (Nat.le_of_not_lt enough), Option.map_some]
      split
      · exact .inr (.inl rfl)
      · exact .inr (.inr ⟨10, _, rfl, by decide⟩)

/-- What the decoder may do with its buffer: a frame that is taken has at least 6 bytes. -/
def Consumed (ws : WsStream) : FrameStatus × WsStream → Prop
  | (.frame _ _ _, later) => ∃ count, 6 ≤ count ∧ count ≤ ws.rxRaw.length ∧
      later = { ws with rxRaw := ws.rxRaw.drop count }
  | (_, later) => later = ws

theorem takePayload_inside (ws : WsStream) (fin : Bool) (opcode : UInt8) {offset : Nat} (offset2 : 2 ≤ offset)
    (payloadLen : Nat) :
    ∃ outcome, ws.takePayload fin opcode offset payloadLen = some outcome ∧ ws.Consumed outcome := by
  rw [takePayload]
  split
  · exact ⟨_, rfl, rfl⟩
  rename_i masked
  rw [slice_inside (Nat.le_add_right _ _) (Nat.le_of_not_lt masked), Option.bind_some]
  split
  · exact ⟨_, rfl, rfl⟩
  rename_i whole
  rw [slice_inside (Nat.le_add_right _ _) (Nat.le_of_not_lt whole), Option.map_some]
  exact ⟨_, rfl, offset + 4 + payloadLen, by omega, Nat.le_of_not_lt whole, rfl⟩

/-- The decoder never leaves its buffer. -/
theorem takeFrame_inside (ws : WsStream) : ∃ outcome, ws.takeFrame = some outcome ∧ ws.Consumed outcome := by
  rw [takeFrame]
  split
  · exact ⟨_, rfl, rfl⟩
  rename_i two
  have first : 0 < ws.rxRaw.length := by omega
  have second : 1 < ws.rxRaw.length := by omega
  rw [List.getElem?_eq_getElem first, List.getElem?_eq_getElem second, Option.bind_some, Option.bind_some]
  split
  · exact ⟨_, rfl, rfl⟩
  obtain short | refused | ⟨offset, payloadLen, read, offset2⟩ := ws.header_inside (ws.rxRaw[1] &&& 0x7f)
  · rw [short]
    exact ⟨_, rfl, rfl⟩
  · rw [refused]
    exact ⟨_, rfl, rfl⟩
  · rw [read, Option.bind_some]
    dsimp only
    split
    · exact ⟨_, rfl, rfl⟩
    split
    · exact ⟨_, rfl, rfl⟩
    exact ws.takePayload_inside _ _ offset2 payloadLen

end WsStream

/-! ## The frames of a client -/

/-- How the length of a payload is written. -/
inductive LengthForm where
  | short
  | medium
  | long

namespace LengthForm

/-- The seven bits in the header. -/
def code (length : Nat) : LengthForm → UInt8
  | .short => UInt8.ofNat length
  | .medium => 126
  | .long => 127

/-- The bytes after them. -/
def extension (length : Nat) : LengthForm → Bytes
  | .short => []
  | .medium => bigEndian 2 length
  | .long => bigEndian 8 length

def Fits (length : Nat) : LengthForm → Prop
  | .short => length < 126
  | .medium => length < 256 ^ 2
  | .long => length < 256 ^ 8

end LengthForm

/-- A frame of a client: with any mask, and with its length in any form that fits. -/
structure ClientFrame where
  fin : Bool
  opcode : UInt8
  mask : Bytes
  form : LengthForm
  payload : Bytes
  fourBytes : mask.length = 4
  fits : form.Fits payload.length

/-- The bytes of the frame. -/
def ClientFrame.wire (frame : ClientFrame) : Bytes :=
  [(if frame.fin then 0x80 else 0) ||| frame.opcode, 0x80 ||| frame.form.code frame.payload.length] ++
    (frame.form.extension frame.payload.length ++ (frame.mask ++ applyMask frame.mask frame.payload))

@[simp] theorem length_applyMask (mask payload : Bytes) : (applyMask mask payload).length = payload.length :=
  List.length_mapIdx

@[simp] theorem applyMask_applyMask (mask payload : Bytes) : applyMask mask (applyMask mask payload) = payload := by
  refine List.ext_getElem (by simp) fun i _ _ => ?_
  simp only [applyMask, List.getElem_mapIdx, UInt8.xor_assoc, UInt8.xor_self, UInt8.xor_zero]

/-- The opcodes of data frames, pings and pongs. -/
def clientOpcodes : List UInt8 :=
  [opContinuation, opText, opBinary, opPing, opPong]

theorem opcode_bits {opcode : UInt8} (known : opcode ∈ clientOpcodes) (fin : Bool) :
    ((if fin then 0x80 else 0) ||| opcode) &&& 0x70 = 0 ∧ (((if fin then 0x80 else 0) ||| opcode) &&& 0x80 != 0) = fin ∧
      ((if fin then 0x80 else 0) ||| opcode) &&& 0x0f = opcode := by
  simp only [clientOpcodes, List.mem_cons, List.not_mem_nil, or_false] at known
  rcases known with rfl | rfl | rfl | rfl | rfl <;> cases fin <;> decide

theorem code_bits : ∀ code < 128, (0x80 ||| UInt8.ofNat code) &&& 0x7f = UInt8.ofNat code ∧
    (0x80 ||| UInt8.ofNat code) &&& 0x80 ≠ 0 := by
  decide +kernel

theorem LengthForm.code_bits {form : LengthForm} {length : Nat} (fits : form.Fits length) :
    (0x80 ||| form.code length) &&& 0x7f = form.code length ∧ (0x80 ||| form.code length) &&& 0x80 ≠ 0 := by
  cases form with
  | short => exact Ferrixd.code_bits length (Nat.lt_trans fits (by decide))
  | medium => exact Ferrixd.code_bits 126 (by decide)
  | long => exact Ferrixd.code_bits 127 (by decide)

namespace WsStream

variable {ws : WsStream}

/-- Of two parts of which some has arrived, the first is incomplete, or it is there and some of the second. -/
theorem arrived_cases {arrived missing first second : Bytes} (same : arrived ++ missing = first ++ second) :
    arrived.length < first.length ∨ ∃ more, arrived = first ++ more ∧ more ++ missing = second := by
  by_cases incomplete : arrived.length < first.length
  · exact .inl incomplete
  · obtain ⟨more, rfl⟩ : first <+: arrived :=
      List.prefix_of_prefix_length_le ⟨second, same.symm⟩ ⟨missing, rfl⟩ (Nat.le_of_not_lt incomplete)
    rw [List.append_assoc] at same
    exact .inr ⟨more, rfl, List.append_cancel_left same⟩

theorem slice_middle (front middle back : Bytes) :
    slice (front ++ (middle ++ back)) front.length (front.length + middle.length) = some middle := by
  rw [slice_inside (Nat.le_add_right _ _) (by simp only [List.length_append]; omega), ← List.append_assoc,
    ← List.length_append, List.take_left, List.drop_left]

/-- The length of a frame is read once all of it has arrived. -/
theorem header_form {b0 b1 : UInt8} {arrived missing rest : Bytes} (buffer : ws.rxRaw = b0 :: b1 :: arrived)
    {form : LengthForm} {length : Nat} (fits : form.Fits length) (short : length ≤ ws.maxMessage)
    (same : arrived ++ missing = form.extension length ++ rest) :
    (arrived.length < (form.extension length).length ∧ ws.header (form.code length) = some (.error .needMore)) ∨
      ∃ more, arrived = form.extension length ++ more ∧ more ++ missing = rest ∧
        ws.header (form.code length) = some (.ok (2 + (form.extension length).length, length)) := by
  -- either the extension has not arrived whole, and is waited for, or it is read
  obtain incomplete | ⟨more, rfl, rest⟩ := arrived_cases same
  · refine .inl ⟨incomplete, ?_⟩
    cases form with
    | short => exact absurd incomplete (Nat.not_lt_zero _)
    | medium =>
      have few : ws.rxRaw.length < 4 := by
        rw [LengthForm.extension, length_bigEndian] at incomplete
        rw [buffer, List.length_cons, List.length_cons]
        omega
      rw [header, LengthForm.code, if_neg (by decide), if_pos rfl, if_pos few]
    | long =>
      have few : ws.rxRaw.length < 10 := by
        rw [LengthForm.extension, length_bigEndian] at incomplete
        rw [buffer, List.length_cons, List.length_cons]
        omega
      rw [header, LengthForm.code, if_neg (by decide), if_neg (by decide), if_pos few]
  · refine .inr ⟨more, rfl, rest, ?_⟩
    cases form with
    | short =>
      have small : (UInt8.ofNat length).toNat = length := Nat.mod_eq_of_lt (Nat.lt_trans fits (by decide))
      have below : UInt8.ofNat length < 126 := by
        rw [UInt8.lt_iff_toNat_lt, small]
        exact fits
      rw [header, LengthForm.code, if_pos below, small]
      rfl
    | medium =>
      have enough : ¬ ws.rxRaw.length < 4 := by
        rw [buffer, LengthForm.extension]
        simp
      have read : slice ws.rxRaw 2 4 = some (bigEndian 2 length) := by
        have middle := slice_middle [b0, b1] (bigEndian 2 length) more
        rw [length_bigEndian] at middle
        rw [buffer]
        exact middle
      rw [header, LengthForm.code, if_neg (by decide), if_pos rfl, if_neg enough, read, Option.map_some,
        ofBigEndian_bigEndian fits, LengthForm.extension, length_bigEndian]
    | long =>
      have enough : ¬ ws.rxRaw.length < 10 := by
        rw [buffer, LengthForm.extension]
        simp
      have read : slice ws.rxRaw 2 10 = some (bigEndian 8 length) := by
        have middle := slice_middle [b0, b1] (bigEndian 8 length) more
        rw [length_bigEndian] at middle
        rw [buffer]
        exact middle
      rw [header, LengthForm.code, if_neg (by decide), if_neg (by decide), if_neg enough, read, Option.map_some,
        ofBigEndian_bigEndian fits, if_neg (Nat.not_lt.mpr short), LengthForm.extension, length_bigEndian]

/-- The payload is unmasked once all of it has arrived. -/
theorem takePayload_arrived (fin : Bool) (opcode : UInt8) {opening arrived missing mask payload later : Bytes}
    (buffer : ws.rxRaw = opening ++ arrived) (four : mask.length = 4)
    (same : arrived ++ missing = mask ++ (applyMask mask payload ++ later)) :
    (ws.rxRaw.length < opening.length + 4 + payload.length ∧
        ws.takePayload fin opcode opening.length payload.length = some (.needMore, ws)) ∨
      ∃ more, ws.rxRaw = opening ++ (mask ++ (applyMask mask payload ++ more)) ∧ more ++ missing = later ∧
        ws.takePayload fin opcode opening.length payload.length =
          some (.frame fin opcode payload, { ws with rxRaw := more }) := by
  have length : ws.rxRaw.length = opening.length + arrived.length := by
    rw [buffer, List.length_append]
  rw [takePayload]
  obtain incomplete | ⟨masked, rfl, afterMask⟩ := arrived_cases same
  · have few : ws.rxRaw.length < opening.length + 4 := by omega
    exact .inl ⟨Nat.lt_add_right _ few, if_pos few⟩
  have first : slice ws.rxRaw opening.length (opening.length + 4) = some mask := by
    rw [buffer, ← four]
    exact slice_middle opening mask masked
  rw [List.length_append, four] at length
  rw [if_neg (by omega), first, Option.bind_some]
  -- the mask is there, and perhaps not all of the payload
  obtain incomplete | ⟨more, rfl, afterPayload⟩ := arrived_cases afterMask
  · rw [length_applyMask] at incomplete
    have few : ws.rxRaw.length < opening.length + 4 + payload.length := by omega
    exact .inl ⟨few, if_pos few⟩
  have second : slice ws.rxRaw (opening.length + 4) (opening.length + 4 + payload.length) =
      some (applyMask mask payload) := by
    have middle := slice_middle (opening ++ mask) (applyMask mask payload) more
    rw [List.length_append, four, length_applyMask, List.append_assoc, ← buffer] at middle
    exact middle
  rw [List.length_append, length_applyMask] at length
  refine .inr ⟨more, buffer, afterPayload, ?_⟩
  rw [if_neg (by omega), second, Option.map_some, applyMask_applyMask]
  have dropped : ws.rxRaw.drop (opening.length + 4 + payload.length) = more := by
    have split : ws.rxRaw = (opening ++ mask ++ applyMask mask payload) ++ more := by
      rw [buffer, List.append_assoc, List.append_assoc]
    rw [split, List.drop_left']
    rw [List.length_append, List.length_append, four, length_applyMask]
  rw [dropped]

/-- However much of a frame has arrived, the decoder waits for the rest of it or takes it. -/
theorem takeFrame_arrived {frame : ClientFrame} (known : frame.opcode ∈ clientOpcodes)
    (short : frame.payload.length ≤ ws.maxMessage) {missing later : Bytes}
    (same : ws.rxRaw ++ missing = frame.wire ++ later) :
    (ws.rxRaw.length < frame.wire.length ∧ ws.takeFrame = some (.needMore, ws)) ∨
      ∃ more, ws.rxRaw = frame.wire ++ more ∧ more ++ missing = later ∧
        ws.takeFrame = some (.frame frame.fin frame.opcode frame.payload, { ws with rxRaw := more }) := by
  obtain ⟨reserved, fin, opcode⟩ := opcode_bits known frame.fin
  obtain ⟨code, masked⟩ := LengthForm.code_bits frame.fits
  have size : frame.wire.length =
      2 + (frame.form.extension frame.payload.length).length + 4 + frame.payload.length := by
    simp only [ClientFrame.wire, List.length_append, length_applyMask, frame.fourBytes, List.length_cons,
      List.length_nil]
    omega
  rw [size]
  rw [ClientFrame.wire, List.append_assoc] at same
  -- part after part: the two bytes of the header, the length, the mask and the payload
  obtain few | ⟨arrived, buffer, rest⟩ := arrived_cases same
  · exact .inl ⟨by simp only [List.length_cons, List.length_nil] at few; omega, if_pos few⟩
  have two : ¬ ws.rxRaw.length < 2 := by
    rw [buffer, List.length_append]
    exact Nat.not_lt.mpr (Nat.le_add_right _ _)
  have first : ws.rxRaw[0]? = some ((if frame.fin then 0x80 else 0) ||| frame.opcode) := by rw [buffer]; rfl
  have second : ws.rxRaw[1]? = some (0x80 ||| frame.form.code frame.payload.length) := by rw [buffer]; rfl
  rw [takeFrame, if_neg two, first, second, Option.bind_some, Option.bind_some, if_neg (not_not.mpr reserved), code,
    fin, opcode]
  have opened : ws.rxRaw = ((if frame.fin then 0x80 else 0) ||| frame.opcode) ::
      (0x80 ||| frame.form.code frame.payload.length) :: arrived := buffer
  rw [List.append_assoc] at rest
  obtain ⟨incomplete, waits⟩ | ⟨after, rfl, afterLength, read⟩ := header_form opened frame.fits short rest
  · rw [waits, opened, List.length_cons, List.length_cons]
    exact .inl ⟨by omega, rfl⟩
  rw [read, Option.bind_some]
  dsimp only
  rw [if_neg (Nat.not_lt.mpr short), if_neg masked]
  rw [← List.append_assoc] at buffer
  rw [List.append_assoc] at afterLength
  have taken := takePayload_arrived frame.fin frame.opcode buffer frame.fourBytes afterLength
  rw [List.length_append] at taken
  obtain waits | ⟨more, whole, afterFrame, frames⟩ := taken
  · exact .inl waits
  · refine .inr ⟨more, ?_, afterFrame, frames⟩
    rw [whole, ClientFrame.wire]
    simp only [List.append_assoc]

end WsStream

end Ferrixd
