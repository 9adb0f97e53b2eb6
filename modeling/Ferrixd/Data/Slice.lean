import Ferrixd.Text

/-! # Slices of a text

A text is sliced at byte offsets, and a slice panics where an end of it is inside a character. -/

namespace Ferrixd

/-- The characters before a byte offset, if the offset is between two characters. -/
def takeBytes? : List Char → Nat → Option (List Char)
  | _, 0 => some []
  | [], _ + 1 => none
  | c :: rest, stop + 1 =>
    if c.utf8Size ≤ stop + 1 then (takeBytes? rest (stop + 1 - c.utf8Size)).map (c :: ·) else none

/-- `text.get(..stop)`; the slice `text[..stop]` panics where this is none. -/
def sliceTo? (text : String) (stop : Nat) : Option String :=
  (takeBytes? text.toList stop).map String.ofList

/-- A byte that goes on with a character. -/
def isContinuation (b : UInt8) : Bool :=
  0x80 ≤ b && b < 0xc0

/-- `str::is_char_boundary`. -/
def isCharBoundary (text : String) (index : Nat) : Bool :=
  index == (utf8 text).length || (utf8 text)[index]?.any fun b => !isContinuation b

/-- A character is one leading byte and continuations. -/
theorem utf8EncodeChar_shape (c : Char) :
    ∃ lead tail, String.utf8EncodeChar c = lead :: tail ∧ isContinuation lead = false ∧
      ∀ b ∈ tail, isContinuation b = true := by
  have continues : ∀ n : Nat, isContinuation (UInt8.ofNat (n % 64 + 128)) = true := by
    intro n
    simp only [isContinuation, Bool.and_eq_true, decide_eq_true_eq, UInt8.le_iff_toNat_le,
      UInt8.lt_iff_toNat_lt, UInt8.toNat_ofNat', UInt8.reduceToNat]
    omega
  have leads : ∀ n : Nat, n < 128 ∨ (192 ≤ n ∧ n < 256) → isContinuation (UInt8.ofNat n) = false := by
    intro n range
    simp only [isContinuation, Bool.and_eq_false_iff, decide_eq_false_iff_not, UInt8.le_iff_toNat_le,
      UInt8.lt_iff_toNat_lt, UInt8.toNat_ofNat', UInt8.reduceToNat]
    omega
  -- by the length of the character: only the first byte has its own range
  rw [String.utf8EncodeChar]
  split
  · exact ⟨_, _, rfl, leads _ (by omega), fun _ member => absurd member List.not_mem_nil⟩
  · split
    · refine ⟨_, _, rfl, leads _ (by omega), fun b member => ?_⟩
      rw [List.mem_singleton.mp member]
      exact continues _
    · split
      · refine ⟨_, _, rfl, leads _ (by omega), fun b member => ?_⟩
        simp only [List.mem_cons, List.not_mem_nil, or_false] at member
        rcases member with same | same <;> rw [same] <;> exact continues _
      · refine ⟨_, _, rfl, leads _ (by omega), fun b member => ?_⟩
        simp only [List.mem_cons, List.not_mem_nil, or_false] at member
        rcases member with same | same | same <;> rw [same] <;> exact continues _

/-- The characters before an offset have the bytes before it. -/
theorem takeBytes?_bytes {chars lead : List Char} {stop : Nat} (taken : takeBytes? chars stop = some lead) :
    lead.flatMap String.utf8EncodeChar = (chars.flatMap String.utf8EncodeChar).take stop := by
  induction chars, stop using takeBytes?.induct generalizing lead with
  | case1 chars =>
    rw [takeBytes?] at taken
    cases taken
    rfl
  | case2 stop => cases taken
  | case3 c rest stop fits ih =>
    rw [takeBytes?, if_pos fits] at taken
    obtain ⟨more, takenRest, rfl⟩ := Option.map_eq_some_iff.mp taken
    have size := String.length_utf8EncodeChar c
    have whole : (String.utf8EncodeChar c).take (stop + 1) = String.utf8EncodeChar c :=
      List.take_of_length_le (by rw [size]; exact fits)
    rw [List.flatMap_cons, List.flatMap_cons, List.take_append, ih takenRest, whole, size]
  | case4 c rest stop long =>
    rw [takeBytes?, if_neg long] at taken
    cases taken

theorem takeBytes?_initial {chars lead : List Char} {stop : Nat} (taken : takeBytes? chars stop = some lead) :
    lead <+: chars := by
  induction chars, stop using takeBytes?.induct generalizing lead with
  | case1 chars =>
    rw [takeBytes?] at taken
    cases taken
    exact List.nil_prefix
  | case2 stop => cases taken
  | case3 c rest stop fits ih =>
    rw [takeBytes?, if_pos fits] at taken
    obtain ⟨more, takenRest, rfl⟩ := Option.map_eq_some_iff.mp taken
    exact List.cons_prefix_cons.mpr ⟨rfl, ih takenRest⟩
  | case4 c rest stop long =>
    rw [takeBytes?, if_neg long] at taken
    cases taken

/-- A text is sliced after any of its characters. -/
theorem takeBytes?_append (lead rest : List Char) :
    takeBytes? (lead ++ rest) (lead.flatMap String.utf8EncodeChar).length = some lead := by
  induction lead with
  | nil => rw [List.flatMap_nil, List.length_nil, takeBytes?]
  | cons c lead ih =>
    have size := c.utf8Size_pos
    obtain ⟨stop, succ⟩ : ∃ stop, c.utf8Size + (lead.flatMap String.utf8EncodeChar).length = stop + 1 :=
      Nat.exists_eq_succ_of_ne_zero (by omega)
    rw [List.flatMap_cons, List.length_append, String.length_utf8EncodeChar, succ, List.cons_append,
      takeBytes?, if_pos (by omega), ← succ, Nat.add_sub_cancel_left, ih]
    rfl

/-- The characters before an offset can be taken if no character goes on there. -/
theorem takeBytes?_isSome_iff (chars : List Char) (stop : Nat) :
    (takeBytes? chars stop).isSome = true ↔
      stop = (chars.flatMap String.utf8EncodeChar).length ∨
        ∃ b, (chars.flatMap String.utf8EncodeChar)[stop]? = some b ∧ isContinuation b = false := by
  induction chars, stop using takeBytes?.induct with
  | case1 chars =>
    rw [takeBytes?]
    refine ⟨fun _ => ?_, fun _ => rfl⟩
    cases chars with
    | nil => exact .inl rfl
    | cons c rest =>
      obtain ⟨lead, tail, shape, leads, -⟩ := utf8EncodeChar_shape c
      rw [List.flatMap_cons, shape]
      exact .inr ⟨lead, rfl, leads⟩
  | case2 stop => simp [takeBytes?]
  | case3 c rest stop fits ih =>
    have size := String.length_utf8EncodeChar c
    rw [takeBytes?, if_pos fits, Option.isSome_map, ih, List.flatMap_cons, List.length_append,
      List.getElem?_append_right (by rw [size]; exact fits), size]
    constructor
    · intro boundary
      exact boundary.imp_left fun total => by omega
    · intro boundary
      exact boundary.imp_left fun total => by omega
  | case4 c rest stop long =>
    have size := String.length_utf8EncodeChar c
    rw [takeBytes?, if_neg long, List.flatMap_cons, List.length_append, size,
      List.getElem?_append_left (by rw [size]; omega)]
    refine ⟨fun taken => (by cases taken), fun boundary => ?_⟩
    -- inside the character every byte is a continuation
    obtain ⟨lead, tail, shape, -, continues⟩ := utf8EncodeChar_shape c
    rcases boundary with total | ⟨b, found, leads⟩
    · omega
    · rw [shape, List.getElem?_cons_succ] at found
      rw [continues b (List.mem_of_getElem? found)] at leads
      cases leads

/-- A text can be sliced where there is no character in the way. -/
theorem sliceTo?_isSome (text : String) (stop : Nat) :
    (sliceTo? text stop).isSome = isCharBoundary text stop := by
  rw [Bool.eq_iff_iff, sliceTo?, Option.isSome_map, takeBytes?_isSome_iff, isCharBoundary, utf8_eq]
  simp [Option.any_eq_true]

/-- A slice has the bytes before its end. -/
theorem utf8_sliceTo? {text lead : String} {stop : Nat} (sliced : sliceTo? text stop = some lead) :
    utf8 lead = (utf8 text).take stop := by
  obtain ⟨chars, taken, rfl⟩ := Option.map_eq_some_iff.mp sliced
  rw [utf8_eq, utf8_eq, String.toList_ofList, takeBytes?_bytes taken]

end Ferrixd
