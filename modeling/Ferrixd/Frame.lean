import Mathlib
import Ferrixd.Protocol
import Ferrixd.Wire

/-! # Parsing built lines

A sourceless line built from a verb, middle parameters and an optional trailing one
parses back to exactly these, as long as its fields are such that the grammar can
carry them and it fits the body budget. -/

namespace Ferrixd

open Protocol

/-- A field the grammar carries as a middle parameter. -/
def Middle (field : String) : Prop :=
  field.toList ≠ [] ∧ (∀ c ∈ field.toList, c ≠ ' ' ∧ c ≠ '\x00' ∧ c ≠ '\r' ∧ c ≠ '\n') ∧
    field.toList.head? ≠ some ':'

/-- A field the grammar carries as the trailing parameter. -/
def Trailing (field : String) : Prop :=
  ∀ c ∈ field.toList, c ≠ '\x00' ∧ c ≠ '\r' ∧ c ≠ '\n'

instance (field : String) : Decidable (Middle field) :=
  have : Decidable (∀ c ∈ field.toList, c ≠ ' ' ∧ c ≠ '\x00' ∧ c ≠ '\r' ∧ c ≠ '\n') := List.decidableBAll _ _
  inferInstanceAs (Decidable (_ ∧ _ ∧ _))

instance (field : String) : Decidable (Trailing field) :=
  List.decidableBAll _ _

/-- The parts of a sourceless line. -/
structure Frame where
  verb : String
  middles : List String
  trailing : Option String

namespace Frame

def line (frame : Frame) : Line :=
  let line := frame.middles.foldl Line.param (Line.bare.command frame.verb)
  match frame.trailing with
  | some text => line.trailing text
  | none => line

def params (frame : Frame) : List String :=
  frame.middles ++ frame.trailing.toList

structure Valid (frame : Frame) : Prop where
  verb : frame.verb.toList ≠ [] ∧ frame.verb.toList.all Char.isAlpha = true
  middles : ∀ field ∈ frame.middles, Middle field
  trailing : ∀ field ∈ frame.trailing, Trailing field

end Frame

/-- The bytes a line's parameters take. -/
def paramBytes : List String → Option String → Bytes
  | [], none => []
  | [], some text => space :: colon :: utf8 text
  | field :: rest, trailing => space :: (utf8 field ++ paramBytes rest trailing)

theorem utf8_params (middles : List String) (trailing : Option String) (line : Line) :
    utf8 (match trailing with
      | some text => (middles.foldl Line.param line).trailing text
      | none => middles.foldl Line.param line).buf = utf8 line.buf ++ paramBytes middles trailing := by
  induction middles generalizing line with
  | nil =>
    cases trailing with
    | none => simp only [List.foldl_nil, paramBytes, List.append_nil]
    | some text =>
      simp only [List.foldl_nil, Line.trailing, utf8_append, paramBytes, List.append_assoc]
      rfl
  | cons field rest ih =>
    rw [List.foldl_cons, ih]
    simp only [Line.param, utf8_append, paramBytes, List.append_assoc]
    rfl

theorem Frame.line_bytes (frame : Frame) :
    utf8 frame.line.buf = utf8 frame.verb ++ paramBytes frame.middles frame.trailing := by
  have verb : utf8 (Line.bare.command frame.verb).buf = utf8 frame.verb := by
    rw [Line.command, Line.bare, utf8_append]
    rfl
  rw [← verb]
  exact utf8_params frame.middles frame.trailing _

/-! ## Fields on the wire -/

theorem Middle.bytes {field : String} (middle : Middle field) :
    ∃ first rest, utf8 field = first :: rest ∧ first ≠ colon ∧
      ∀ b ∈ first :: rest, b ≠ space ∧ b ≠ 0x00 ∧ b ≠ 0x0d ∧ b ≠ 0x0a := by
  obtain ⟨nonempty, clean, unmarked⟩ := middle
  obtain ⟨first, rest, shape⟩ := List.exists_cons_of_ne_nil (utf8_ne_nil nonempty)
  refine ⟨first, rest, shape, ?_, ?_⟩
  · rintro rfl
    exact unmarked (utf8_head_ascii shape (by decide))
  · intro b member
    rw [← shape] at member
    have banned : ∀ c : UInt8, c < 0x80 → b = c → Char.ofNat c.toNat ∈ field.toList :=
      fun c ascii same => ascii_mem_utf8 (same ▸ member) ascii
    refine ⟨fun same => ?_, fun same => ?_, fun same => ?_, fun same => ?_⟩
    · exact (clean _ (banned space (by decide) same)).1 rfl
    · exact (clean _ (banned 0x00 (by decide) same)).2.1 rfl
    · exact (clean _ (banned 0x0d (by decide) same)).2.2.1 rfl
    · exact (clean _ (banned 0x0a (by decide) same)).2.2.2 rfl

theorem Trailing.bytes {field : String} (trailing : Trailing field) :
    ∀ b ∈ utf8 field, b ≠ 0x00 ∧ b ≠ 0x0d ∧ b ≠ 0x0a := by
  intro b member
  have banned : ∀ c : UInt8, c < 0x80 → b = c → Char.ofNat c.toNat ∈ field.toList :=
    fun c ascii same => ascii_mem_utf8 (same ▸ member) ascii
  refine ⟨fun same => ?_, fun same => ?_, fun same => ?_⟩
  · exact (trailing _ (banned 0x00 (by decide) same)).1 rfl
  · exact (trailing _ (banned 0x0d (by decide) same)).2.1 rfl
  · exact (trailing _ (banned 0x0a (by decide) same)).2.2 rfl

/-- Parameters start with a space, if there are any. -/
theorem paramBytes_shape (middles : List String) (trailing : Option String) :
    paramBytes middles trailing = [] ∨ ∃ rest, paramBytes middles trailing = space :: rest := by
  cases middles with
  | nil =>
    cases trailing with
    | none => exact .inl rfl
    | some text => exact .inr ⟨_, rfl⟩
  | cons field rest => exact .inr ⟨_, rfl⟩

/-- A token in front of parameters ends where they begin. -/
theorem token_paramBytes {bytes : Bytes} (clean : ∀ b ∈ bytes, b ≠ space) (middles : List String)
    (trailing : Option String) :
    token (bytes ++ paramBytes middles trailing) = bytes ∧
      afterToken (bytes ++ paramBytes middles trailing) = paramBytes middles trailing := by
  have scanned : ∀ b ∈ bytes, (b != space) = true := fun b member => by simpa using clean b member
  rw [token, afterToken, List.takeWhile_append_of_pos scanned, List.dropWhile_append_of_pos scanned]
  rcases paramBytes_shape middles trailing with empty | ⟨rest, shape⟩
  · rw [empty]
    exact ⟨List.append_nil bytes, rfl⟩
  · rw [shape]
    constructor
    · rw [List.takeWhile_cons_of_neg (by decide), List.append_nil]
    · exact List.dropWhile_cons_of_neg (by decide)

theorem strField_utf8 (text field : String) : strField (utf8 text) field = .ok text := by
  rw [strField, fromUtf8?_utf8]

/-- A middle parameter is read as it stands, whatever comes behind it. -/
theorem parseParams_field {field : String} (middle : Middle field) (rest : List String) (trailing : Option String) :
    parseParams (paramBytes (field :: rest) trailing) = do
      let params ← parseParams (paramBytes rest trailing)
      return field :: params := by
  obtain ⟨first, more, bytes, notColon, clean⟩ := middle.bytes
  have notSpace : first ≠ space := (clean first List.mem_cons_self).1
  have skipped : skipSpaces (paramBytes (field :: rest) trailing) =
      first :: (more ++ paramBytes rest trailing) := by
    rw [paramBytes, bytes, skipSpaces, List.dropWhile_cons_of_pos (by decide), List.cons_append,
      List.dropWhile_cons_of_neg (by simpa using notSpace)]
  obtain ⟨tokenEq, afterEq⟩ :=
    token_paramBytes (fun b member => (clean b (List.mem_cons_of_mem _ member)).1) rest trailing
  rw [parseParams_middle skipped notColon, tokenEq, afterEq, ← bytes, strField_utf8]
  rfl

theorem parseParams_paramBytes (middles : List String) (trailing : Option String)
    (fields : ∀ field ∈ middles, Middle field) :
    parseParams (paramBytes middles trailing) = .ok (middles ++ trailing.toList) := by
  induction middles with
  | nil =>
    cases trailing with
    | none => exact parseParams_end rfl
    | some text =>
      have skipped : skipSpaces (paramBytes [] (some text)) = colon :: utf8 text := rfl
      rw [parseParams_trailing skipped, strField_utf8]
      rfl
  | cons field rest ih =>
    have parsedRest := ih fun other member => fields other (List.mem_cons_of_mem _ member)
    rw [parseParams_field (fields field List.mem_cons_self), parsedRest]
    rfl

/-! ## The whole line -/

/-- An ASCII letter is one byte, and that byte is a letter. -/
theorem alpha_bytes {c : Char} (alpha : c.isAlpha = true) :
    ∃ b, String.utf8EncodeChar c = [b] ∧ isAsciiAlphabetic b = true := by
  have range : (65 ≤ c.val.toNat ∧ c.val.toNat ≤ 90) ∨ (97 ≤ c.val.toNat ∧ c.val.toNat ≤ 122) := by
    simpa [Char.isAlpha, Char.isUpper, Char.isLower, UInt32.le_iff_toNat_le] using alpha
  refine ⟨UInt8.ofNat c.val.toNat, ?_, ?_⟩
  · rw [String.utf8EncodeChar]
    exact if_pos (by omega)
  · have code : c.val.toNat % 2 ^ 8 = c.val.toNat := Nat.mod_eq_of_lt (by omega)
    simp only [isAsciiAlphabetic, Bool.or_eq_true, Bool.and_eq_true, decide_eq_true_eq,
      UInt8.le_iff_toNat_le, UInt8.toNat_ofNat', code, UInt8.reduceToNat]
    exact range

theorem alpha_utf8 {text : String} (alpha : text.toList.all Char.isAlpha = true) :
    ∀ b ∈ utf8 text, isAsciiAlphabetic b = true := by
  intro b member
  rw [utf8_eq, List.mem_flatMap] at member
  obtain ⟨c, inText, encoded⟩ := member
  obtain ⟨letter, shape, alphabetic⟩ := alpha_bytes (List.all_eq_true.mp alpha c inText)
  rw [shape, List.mem_singleton] at encoded
  exact encoded ▸ alphabetic

theorem alphabetic_ne {b : UInt8} (alphabetic : isAsciiAlphabetic b = true) :
    b ≠ space ∧ b ≠ colon ∧ b ≠ 0x40 ∧ b ≠ 0x00 ∧ b ≠ 0x0d ∧ b ≠ 0x0a ∧ isAsciiDigit b = false := by
  simp only [isAsciiAlphabetic, Bool.or_eq_true, Bool.and_eq_true, decide_eq_true_eq,
    UInt8.le_iff_toNat_le, UInt8.reduceToNat] at alphabetic
  have apart : ∀ n : Nat, n < 65 → b ≠ UInt8.ofNat n := by
    rintro n small rfl
    rw [UInt8.toNat_ofNat', Nat.mod_eq_of_lt (by omega)] at alphabetic
    omega
  refine ⟨apart 0x20 (by decide), apart 0x3a (by decide), apart 0x40 (by decide),
    apart 0x00 (by decide), apart 0x0d (by decide), apart 0x0a (by decide), ?_⟩
  simp only [isAsciiDigit, Bool.and_eq_false_iff, decide_eq_false_iff_not,
    UInt8.le_iff_toNat_le, UInt8.reduceToNat]
  omega

theorem parseCommand_verb {verb : String} (nonempty : verb.toList ≠ [])
    (alpha : verb.toList.all Char.isAlpha = true) :
    parseCommand (utf8 verb) = .ok (.named verb) := by
  have letters := alpha_utf8 alpha
  obtain ⟨first, rest, shape⟩ := List.exists_cons_of_ne_nil (utf8_ne_nil nonempty)
  have notDigit : isAsciiDigit first = false :=
    (alphabetic_ne (letters first (shape ▸ List.mem_cons_self))).2.2.2.2.2.2
  have notNumeric : ((utf8 verb).length == 3 && (utf8 verb).all isAsciiDigit) = false := by
    rw [shape, List.all_cons, notDigit, Bool.false_and, Bool.and_false]
  have notEmpty : (utf8 verb).isEmpty = false := by rw [shape]; rfl
  rw [parseCommand, notEmpty, notNumeric, List.all_eq_true.mpr letters, fromUtf8?_utf8]
  rfl

theorem stripLineTerminators_crlf {bytes : Bytes} (clean : ∀ b ∈ bytes, b ≠ 0x0d ∧ b ≠ 0x0a) :
    stripLineTerminators bytes = bytes ∧ stripLineTerminators (bytes ++ [0x0d, 0x0a]) = bytes := by
  have kept : bytes.reverse.dropWhile (fun b => b == 0x0d || b == 0x0a) = bytes.reverse := by
    cases flipped : bytes.reverse with
    | nil => rfl
    | cons last rest =>
      have member : last ∈ bytes := by
        rw [← List.mem_reverse, flipped]
        exact List.mem_cons_self
      refine List.dropWhile_cons_of_neg ?_
      simpa using clean last member
  constructor
  · rw [stripLineTerminators, kept, List.reverse_reverse]
  · have crlf : (bytes ++ [0x0d, 0x0a]).reverse = 0x0a :: 0x0d :: bytes.reverse := by simp
    rw [stripLineTerminators, crlf, List.dropWhile_cons_of_pos (by decide),
      List.dropWhile_cons_of_pos (by decide), kept, List.reverse_reverse]

theorem trailing_of_middle {param : String} (middle : Middle param) : Trailing param :=
  fun c member => (middle.2.1 c member).2

theorem paramBytes_clean {middles : List String} {trailing : Option String}
    (fields : ∀ field ∈ middles, Trailing field) (last : ∀ field ∈ trailing, Trailing field) :
    ∀ b ∈ paramBytes middles trailing, b ≠ 0x00 ∧ b ≠ 0x0d ∧ b ≠ 0x0a := by
  induction middles with
  | nil =>
    cases trailing with
    | none => simp [paramBytes]
    | some text =>
      intro b member
      simp only [paramBytes, List.mem_cons] at member
      rcases member with rfl | rfl | member
      · decide
      · decide
      · exact (last text rfl).bytes b member
  | cons field rest ih =>
    intro b member
    simp only [paramBytes, List.mem_cons, List.mem_append] at member
    rcases member with rfl | member | member
    · decide
    · exact (fields field List.mem_cons_self).bytes b member
    · exact ih (fun other inRest => fields other (List.mem_cons_of_mem _ inRest)) b member

theorem Frame.Valid.line_clean {frame : Frame} (valid : frame.Valid) :
    ∀ b ∈ utf8 frame.line.buf, b ≠ 0x00 ∧ b ≠ 0x0d ∧ b ≠ 0x0a := by
  intro b member
  rw [frame.line_bytes, List.mem_append] at member
  rcases member with member | member
  · obtain ⟨-, -, -, notNul, notCr, notLf, -⟩ := alphabetic_ne (alpha_utf8 valid.verb.2 b member)
    exact ⟨notNul, notCr, notLf⟩
  · exact paramBytes_clean (fun field inLine => trailing_of_middle (valid.middles field inLine)) valid.trailing b member

/-- What the parser sees of a valid frame before the body budget is checked. -/
theorem Frame.Valid.line_shape {frame : Frame} (valid : frame.Valid) (limits : Limits) :
    stripLineTerminators (utf8 frame.line.buf) = utf8 frame.line.buf ∧
    (utf8 frame.line.buf).isEmpty = false ∧
    (utf8 frame.line.buf).any (fun b => b == 0x00 || b == 0x0d || b == 0x0a) = false ∧
    parseTagPart (utf8 frame.line.buf) limits = .ok ([], utf8 frame.line.buf) ∧
    parseSourcePart (utf8 frame.line.buf) = .ok (none, utf8 frame.line.buf) := by
  have clean := valid.line_clean
  -- the verb begins with a letter, so the line has neither tags nor a source
  obtain ⟨first, rest, shape⟩ := List.exists_cons_of_ne_nil (utf8_ne_nil valid.verb.1)
  obtain ⟨-, notColon, notAt, -⟩ :=
    alphabetic_ne (alpha_utf8 valid.verb.2 first (shape ▸ List.mem_cons_self))
  have whole : utf8 frame.line.buf = first :: (rest ++ paramBytes frame.middles frame.trailing) := by
    rw [frame.line_bytes, shape, List.cons_append]
  refine ⟨(stripLineTerminators_crlf fun b member => (clean b member).2).1, ?_, ?_, ?_, ?_⟩
  · rw [whole]
    rfl
  · rw [List.any_eq_false]
    intro b member
    obtain ⟨notNul, notCr, notLf⟩ := clean b member
    simp [notNul, notCr, notLf]
  · rw [whole, parseTagPart]
    rintro _ ⟨⟩
    exact notAt rfl
  · rw [whole, parseSourcePart]
    rintro _ ⟨⟩
    exact notColon rfl

/-- A valid frame over the body budget is refused for it. -/
theorem parse_frame_overlong {frame : Frame} (valid : frame.Valid) (limits : Limits)
    (long : limits.maxBodyBytes < frame.line.buf.utf8ByteSize) :
    parse (utf8 frame.line.buf) limits = .error (.bodyTooLong limits.maxBodyBytes) := by
  obtain ⟨stripped, notEmpty, legal, noTags, -⟩ := valid.line_shape limits
  have budget : (utf8 frame.line.buf).length > limits.maxBodyBytes := by
    rw [utf8_length]
    exact long
  simp only [parse, stripped, notEmpty, legal, noTags, if_pos budget, Bool.false_eq_true, if_false,
    bind, Except.bind]
  rfl

/-- A valid frame within the body budget parses to its own parts, with or without the
line terminator. -/
theorem parse_frame {frame : Frame} (valid : frame.Valid) (limits : Limits)
    (fits : frame.line.buf.utf8ByteSize ≤ limits.maxBodyBytes) :
    parse (utf8 frame.line.buf) limits =
      .ok ⟨[], none, .named frame.verb, frame.params⟩ ∧
    parse frame.line.build limits =
      .ok ⟨[], none, .named frame.verb, frame.params⟩ := by
  obtain ⟨stripped, notEmpty, legal, noTags, noSource⟩ := valid.line_shape limits
  have budget : ¬ (utf8 frame.line.buf).length > limits.maxBodyBytes := by
    rw [utf8_length]
    omega
  have letters := alpha_utf8 valid.verb.2
  obtain ⟨verbToken, verbAfter⟩ := token_paramBytes
    (fun b member => (alphabetic_ne (letters b member)).1) frame.middles frame.trailing
  have core : parse (utf8 frame.line.buf) limits =
      .ok ⟨[], none, .named frame.verb, frame.params⟩ := by
    simp only [parse, stripped, notEmpty, legal, noTags, noSource, if_neg budget, Bool.false_eq_true,
      if_false, bind, Except.bind, pure, Except.pure]
    rw [frame.line_bytes, verbToken, verbAfter, parseCommand_verb valid.verb.1 valid.verb.2,
      parseParams_paramBytes _ _ valid.middles]
    rfl
  refine ⟨core, ?_⟩
  have build : frame.line.build = utf8 frame.line.buf ++ [0x0d, 0x0a] := by
    rw [Line.build, utf8_append]
    rfl
  -- the built line has its end, and is read as the one without
  have terminated : stripLineTerminators frame.line.build = utf8 frame.line.buf := by
    rw [build]
    exact (stripLineTerminators_crlf fun b member => (valid.line_clean b member).2).2
  rw [← core, parse, parse, stripped, terminated]

end Ferrixd
