import Mathlib
import Ferrixd.Frame

/-! # Rendering messages

The wire form of a message.  What the parser accepts renders to a line that parses back, within
the budgets of the line it came from. -/

namespace Ferrixd.Protocol

/-! ## Tag values -/

def escapeChar : Char → List Char
  | ';' => ['\\', ':']
  | ' ' => ['\\', 's']
  | '\\' => ['\\', '\\']
  | '\r' => ['\\', 'r']
  | '\n' => ['\\', 'n']
  | other => [other]

def escapeValue (value : String) : String :=
  String.ofList (value.toList.flatMap escapeChar)

/-- The characters an escaped value does not contain. -/
def isEscaped (c : Char) : Bool :=
  c == ';' || c == ' ' || c == '\\' || c == '\r' || c == '\n'

theorem escapeChar_plain {c : Char} (plain : isEscaped c = false) : escapeChar c = [c] := by
  simp only [isEscaped, Bool.or_eq_false_iff, beq_eq_false_iff_ne, ne_eq] at plain
  obtain ⟨⟨⟨⟨_, _⟩, _⟩, _⟩, _⟩ := plain
  unfold escapeChar
  split <;> first | contradiction | rfl

theorem escapeChar_escaped {c : Char} (escaped : isEscaped c = true) :
    ∃ letter, escapeChar c = ['\\', letter] ∧ letter.utf8Size = 1 := by
  simp only [isEscaped, Bool.or_eq_true, beq_iff_eq] at escaped
  rcases escaped with (((rfl | rfl) | rfl) | rfl) | rfl
  · exact ⟨':', rfl, rfl⟩
  · exact ⟨'s', rfl, rfl⟩
  · exact ⟨'\\', rfl, rfl⟩
  · exact ⟨'r', rfl, rfl⟩
  · exact ⟨'n', rfl, rfl⟩

theorem unescapeChars_plain {c : Char} (plain : c ≠ '\\') (rest : List Char) :
    unescapeChars (c :: rest) = c :: unescapeChars rest := by
  rw [unescapeChars]
  · rintro rfl
    exact absurd rfl plain
  · rintro _ _ rfl
    exact absurd rfl plain

theorem unescapeChars_escapeChar (c : Char) (rest : List Char) :
    unescapeChars (escapeChar c ++ rest) = c :: unescapeChars rest := by
  cases escaped : isEscaped c with
  | false =>
    rw [escapeChar_plain escaped]
    refine unescapeChars_plain ?_ rest
    rintro rfl
    cases escaped
  | true =>
    simp only [isEscaped, Bool.or_eq_true, beq_iff_eq] at escaped
    rcases escaped with (((rfl | rfl) | rfl) | rfl) | rfl <;> rfl

/-- Escaping a value loses nothing. -/
theorem unescapeValue_escapeValue (value : String) : unescapeValue (escapeValue value) = value := by
  have chars : ∀ chars : List Char, unescapeChars (chars.flatMap escapeChar) = chars := by
    intro chars
    induction chars with
    | nil => rfl
    | cons c rest ih => rw [List.flatMap_cons, unescapeChars_escapeChar, ih]
  rw [unescapeValue, escapeValue, String.toList_ofList, chars, String.ofList_toList]

/-- How many bytes a list of characters takes. -/
def charBytes (chars : List Char) : Nat :=
  (chars.map Char.utf8Size).sum

theorem utf8_length_charBytes (text : String) : (utf8 text).length = charBytes text.toList := by
  rw [utf8_eq, List.length_flatMap, charBytes]
  simp only [String.length_utf8EncodeChar]

theorem charBytes_escapeChar_le (c : Char) : charBytes (escapeChar c) ≤ max 2 c.utf8Size := by
  cases escaped : isEscaped c with
  | false =>
    rw [escapeChar_plain escaped]
    simp only [charBytes, List.map_cons, List.map_nil, List.sum_cons, List.sum_nil]
    exact Nat.le_max_right _ _
  | true =>
    obtain ⟨letter, shape, single⟩ := escapeChar_escaped escaped
    rw [shape]
    simp only [charBytes, List.map_cons, List.map_nil, single, List.sum_cons, List.sum_nil]
    exact Nat.le_max_left _ _

/-- An escape on the wire takes at least the bytes of the escape for what it means. -/
theorem unescapeChars_escape (c : Char) (rest : List Char) :
    ∃ meant, unescapeChars ('\\' :: c :: rest) = meant :: unescapeChars rest ∧
      charBytes (escapeChar meant) ≤ 1 + c.utf8Size ∧ (meant = '\x00' → c = '\x00') := by
  refine ⟨_, rfl, ?_⟩
  split
  · decide
  · decide
  · decide
  · decide
  · have size := charBytes_escapeChar_le c
    have positive := c.utf8Size_pos
    exact ⟨by omega, id⟩

/-- A character that needed an escape had one, so escaping a value again takes no more bytes
than it took on the wire. -/
theorem charBytes_escape_unescape_le (chars : List Char)
    (wire : ∀ c ∈ chars, isEscaped c = true → c = '\\') :
    charBytes ((unescapeChars chars).flatMap escapeChar) ≤ charBytes chars := by
  induction chars using unescapeChars.induct with
  | case1 => exact Nat.le_refl _
  | case2 => exact Nat.zero_le _
  | case3 c rest ih =>
    have later := ih fun other member => wire other (List.mem_cons_of_mem _ (List.mem_cons_of_mem _ member))
    -- an escape is two characters, and what it stands for is never escaped longer
    obtain ⟨meant, shape, decoded, -⟩ := unescapeChars_escape c rest
    have backslash : Char.utf8Size '\\' = 1 := rfl
    rw [shape, List.flatMap_cons]
    simp only [charBytes, List.map_append, List.sum_append, List.map_cons, List.sum_cons, backslash]
      at decoded later ⊢
    omega
  | case4 c rest ended escape ih =>
    have later := ih fun other member => wire other (List.mem_cons_of_mem _ member)
    have unescaped : c ≠ '\\' := by
      intro backslash
      cases rest with
      | nil => exact ended backslash rfl
      | cons next more => exact escape next more backslash rfl
    have plain : isEscaped c = false := by
      rw [Bool.eq_false_iff]
      exact fun escaped => unescaped (wire c List.mem_cons_self escaped)
    rw [unescapeChars_plain unescaped, List.flatMap_cons, escapeChar_plain plain]
    simp only [charBytes, List.map_append, List.sum_append, List.map_cons, List.map_nil, List.sum_cons,
      List.sum_nil] at later ⊢
    omega

/-! ## The wire form -/

def Tag.render (tag : Tag) : String :=
  match tag.value with
  | some value => tag.key ++ "=" ++ escapeValue value
  | none => tag.key

def renderTags : List Tag → String
  | [] => ""
  | [tag] => tag.render
  | tag :: rest => tag.render ++ ";" ++ renderTags rest

def Source.render (source : Source) : String :=
  source.name ++ (source.user.elim "" fun user => "!" ++ user) ++ (source.host.elim "" fun host => "@" ++ host)

def Command.render : Command → String
  | .named verb => verb
  | .numeric code => pad 3 code

/-- The final parameter is marked if it is empty, contains a space or begins with a colon. -/
def needsColon (param : String) : Bool :=
  param.isEmpty || containsChar param ' ' || startsWith param ":"

def renderParams : List String → String
  | [] => ""
  | [last] => if needsColon last then " :" ++ last else " " ++ last
  | param :: rest => " " ++ param ++ renderParams rest

namespace Message

/-- What the body budget counts. -/
def body (message : Message) : String :=
  (message.source.elim "" fun source => ":" ++ source.render ++ " ") ++ message.command.render ++
    renderParams message.params

def render (message : Message) : String :=
  (if message.tags.isEmpty then "" else "@" ++ renderTags message.tags ++ " ") ++ message.body ++ "\r\n"

end Message

/-! ## Fields keep their bytes -/

theorem utf8_of_strField {bytes : Bytes} {field text : String} (read : strField bytes field = .ok text) :
    utf8 text = bytes := by
  rw [strField, fromUtf8?, String.fromUTF8?] at read
  split at read
  · rename_i decoded found
    cases read
    split at found
    · cases found
      rfl
    · cases found
  · cases read

/-- Both sides of a split and the byte between them are what was split. -/
theorem splitByte_spec (b : UInt8) (bytes : Bytes) :
    (∀ other ∈ (splitByte b bytes).1, other ≠ b) ∧
      (splitByte b bytes).1 ++ (splitByte b bytes).2.elim [] (fun right => b :: right) = bytes := by
  constructor
  · intro other member
    simpa using List.all_eq_true.mp List.all_takeWhile other member
  · have whole := List.takeWhile_append_dropWhile (p := fun other => other != b) (l := bytes)
    rw [splitByte]
    cases shape : bytes.dropWhile fun other => other != b with
    | nil =>
      rw [shape] at whole
      exact whole
    | cons first rest =>
      have found : first = b := by
        have head := List.head?_dropWhile_not (fun other => other != b) bytes
        rw [shape] at head
        simpa using head
      rw [shape, found] at whole
      exact whole

theorem splitByte_append {b : UInt8} {left : Bytes} (clean : ∀ other ∈ left, other ≠ b) (right : Option Bytes) :
    splitByte b (left ++ right.elim [] fun right => b :: right) = (left, right) := by
  have scanned : ∀ other ∈ left, (other != b) = true := fun other member => by simpa using clean other member
  rw [splitByte, List.takeWhile_append_of_pos scanned, List.dropWhile_append_of_pos scanned]
  cases right with
  | none => simp
  | some right => simp

theorem parseTagKey_bytes {bytes : Bytes} {key : String} (parsed : parseTagKey bytes = .ok key) :
    utf8 key = bytes ∧ bytes ≠ [] ∧ ∀ b ∈ bytes, isTagKeyByte b = true ∨ b = 0x2b := by
  cases bytes with
  | nil => cases parsed
  | cons first rest =>
    rw [parseTagKey] at parsed
    split at parsed
    · rename_i valid
      refine ⟨utf8_of_strField parsed, List.cons_ne_nil first rest, fun b member => ?_⟩
      simp only [Bool.and_eq_true, Bool.or_eq_true, beq_iff_eq, List.all_eq_true] at valid
      rcases List.mem_cons.mp member with rfl | member
      · exact valid.1
      · exact .inl (valid.2 b member)
    · cases parsed

theorem bind_ok {ε α β : Type} {first : Except ε α} {next : α → Except ε β} {result : β}
    (ok : first >>= next = .ok result) : ∃ value, first = .ok value ∧ next value = .ok result := by
  cases first with
  | error => cases ok
  | ok value => exact ⟨value, rfl, ok⟩

theorem utf8_of_optional {bytes : Option Bytes} {field : String} {text : Option String}
    (read : (bytes.mapM fun raw => strField raw field) = .ok text) : text.map utf8 = bytes := by
  cases bytes with
  | none =>
    cases read
    rfl
  | some raw =>
    obtain ⟨decoded, ok, done⟩ := bind_ok read
    cases done
    rw [Option.map_some, utf8_of_strField ok]

/-- The parts of a source are read from what stands between its two signs. -/
theorem parseSource_parts {bytes : Bytes} {source : Source} (parsed : parseSource bytes = .ok source) :
    strField (splitByte 0x21 (splitByte 0x40 bytes).1).1 "source name" = .ok source.name ∧
      ((splitByte 0x21 (splitByte 0x40 bytes).1).2.mapM fun u => strField u "source user") = .ok source.user ∧
      ((splitByte 0x40 bytes).2.mapM fun h => strField h "source host") = .ok source.host := by
  rw [parseSource] at parsed
  dsimp only at parsed
  split at parsed
  · cases parsed
  · obtain ⟨name, readName, parsed⟩ := bind_ok parsed
    obtain ⟨user, readUser, parsed⟩ := bind_ok parsed
    obtain ⟨host, readHost, parsed⟩ := bind_ok parsed
    cases parsed
    exact ⟨readName, readUser, readHost⟩

/-- A source renders to the bytes it was read from. -/
theorem parseSource_bytes {bytes : Bytes} {source : Source} (parsed : parseSource bytes = .ok source) :
    utf8 source.render = bytes := by
  obtain ⟨-, whole⟩ := splitByte_spec 0x40 bytes
  obtain ⟨-, nameUser⟩ := splitByte_spec 0x21 (splitByte 0x40 bytes).1
  obtain ⟨readName, readUser, readHost⟩ := parseSource_parts parsed
  rw [← whole, ← nameUser]
  have bang : utf8 "!" = [0x21] := rfl
  have sign : utf8 "@" = [0x40] := rfl
  have empty : utf8 "" = [] := rfl
  rw [Source.render, utf8_append, utf8_append, utf8_of_strField readName, ← utf8_of_optional readUser,
    ← utf8_of_optional readHost]
  obtain ⟨name, user, host⟩ := source
  cases user <;> cases host <;> simp [utf8_append, bang, sign, empty]

theorem utf8_digit {b : UInt8} (digit : isAsciiDigit b = true) :
    (b - 0x30).toNat < 10 ∧ String.utf8EncodeChar (b - 0x30).toNat.digitChar = [b] := by
  simp only [isAsciiDigit, Bool.and_eq_true, decide_eq_true_eq, UInt8.le_iff_toNat_le, UInt8.reduceToNat] at digit
  have value : (b - 0x30).toNat = b.toNat - 48 := UInt8.toNat_sub_of_le _ _ (UInt8.le_iff_toNat_le.mpr digit.1)
  have encoded : ∀ digit < 10, String.utf8EncodeChar (Nat.digitChar digit) = [UInt8.ofNat (48 + digit)] := by
    decide
  have small : (b - 0x30).toNat < 10 := by omega
  have back : UInt8.ofNat (48 + (b - 0x30).toNat) = b := by
    rw [show 48 + (b - 0x30).toNat = b.toNat by omega, UInt8.ofNat_toNat]
  exact ⟨small, by rw [encoded _ small, back]⟩

theorem pad_three {hundreds tens units : Nat} (h : hundreds < 10) (t : tens < 10) (u : units < 10) :
    pad 3 (10 * (10 * hundreds + tens) + units) =
      String.ofList [hundreds.digitChar, tens.digitChar, units.digitChar] := by
  have digits : ∀ {more last : Nat}, 0 < more → last < 10 →
      Nat.toDigits 10 (10 * more + last) = Nat.toDigits 10 more ++ [last.digitChar] := by
    intro more last positive small
    rw [← Nat.toDigits_append_toDigits (by decide) positive small, Nat.toDigits_of_lt_base small]
  by_cases noHundreds : hundreds = 0
  · subst noHundreds
    by_cases noTens : tens = 0
    · subst noTens
      rw [pad, Nat.mul_zero, Nat.zero_add, Nat.toDigits_of_lt_base (by omega)]
      rfl
    · rw [pad, Nat.mul_zero, Nat.zero_add, digits (by omega) u, Nat.toDigits_of_lt_base t]
      rfl
  · rw [pad, digits (by omega) u, digits (by omega) t, Nat.toDigits_of_lt_base h]
    rfl

/-- A command renders to the bytes it was read from. -/
theorem parseCommand_bytes {bytes : Bytes} {command : Command} (parsed : parseCommand bytes = .ok command) :
    utf8 command.render = bytes := by
  rw [parseCommand] at parsed
  split at parsed
  · cases parsed
  · split at parsed
    · rename_i numeric
      cases parsed
      simp only [Bool.and_eq_true, beq_iff_eq, List.all_eq_true] at numeric
      obtain ⟨three, digit⟩ := numeric
      obtain ⟨hundreds, tens, units, rfl⟩ := List.length_eq_three.mp three
      obtain ⟨h, hundredsByte⟩ := utf8_digit (digit hundreds (by simp))
      obtain ⟨t, tensByte⟩ := utf8_digit (digit tens (by simp))
      obtain ⟨u, unitsByte⟩ := utf8_digit (digit units (by simp))
      -- a numeric keeps its leading zeros
      have padded := pad_three h t u
      simp only [Command.render, List.foldl_cons, List.foldl_nil, Nat.mul_zero, Nat.zero_add]
      rw [padded, utf8_eq, String.toList_ofList]
      simp only [List.flatMap_cons, List.flatMap_nil, hundredsByte, tensByte, unitsByte]
      rfl
    · split at parsed
      · split at parsed
        · rename_i verb read
          cases parsed
          have field : strField bytes "" = .ok verb := by
            rw [strField, read]
          exact utf8_of_strField field
        · cases parsed
      · cases parsed

/-! ## Parameters -/

/-- The bytes a line must not contain. -/
def Clean (bytes : Bytes) : Prop :=
  ∀ b ∈ bytes, b ≠ 0x00 ∧ b ≠ 0x0d ∧ b ≠ 0x0a

instance (bytes : Bytes) : Decidable (Clean bytes) :=
  List.decidableBAll _ _

theorem mem_utf8_of_mem {text : String} {c : Char} (member : c ∈ text.toList) {b : UInt8}
    (encoded : b ∈ String.utf8EncodeChar c) : b ∈ utf8 text := by
  rw [utf8_eq, List.mem_flatMap]
  exact ⟨c, member, encoded⟩

theorem trailing_of_clean {text : String} (clean : Clean (utf8 text)) : Trailing text := by
  refine fun c member => ⟨?_, ?_, ?_⟩
  · rintro rfl
    exact (clean 0x00 (mem_utf8_of_mem member (by decide))).1 rfl
  · rintro rfl
    exact (clean 0x0d (mem_utf8_of_mem member (by decide))).2.1 rfl
  · rintro rfl
    exact (clean 0x0a (mem_utf8_of_mem member (by decide))).2.2 rfl

theorem middle_of_clean {text : String} (clean : Clean (utf8 text)) (solid : space ∉ utf8 text)
    (nonempty : utf8 text ≠ []) (unmarked : (utf8 text).head? ≠ some colon) : Middle text := by
  refine ⟨?_, fun c member => ⟨?_, trailing_of_clean clean c member⟩, fun marked => unmarked ?_⟩
  · intro empty
    rw [utf8_eq, empty] at nonempty
    exact nonempty rfl
  · rintro rfl
    exact solid (mem_utf8_of_mem member (by decide))
  · obtain ⟨rest, shape⟩ := List.head?_eq_some_iff.mp marked
    rw [utf8_eq, shape]
    rfl

theorem needsColon_false_iff {param : String} (trailing : Trailing param) :
    needsColon param = false ↔ Middle param := by
  have nonempty : param.isEmpty = false ↔ param.toList ≠ [] := by
    rw [Bool.eq_false_iff, Ne, String.isEmpty_iff, Ne, String.toList_eq_nil_iff]
  have solid : containsChar param ' ' = false ↔ ∀ c ∈ param.toList, c ≠ ' ' := by
    rw [containsChar, Bool.eq_false_iff, Ne, List.contains_iff_mem]
    constructor
    · rintro absent c member rfl
      exact absent member
    · exact fun solid member => solid ' ' member rfl
  have unmarked : startsWith param ":" = false ↔ param.toList.head? ≠ some ':' := by
    rw [startsWith]
    have mark : ":".toList = [':'] := rfl
    rw [mark]
    cases param.toList with
    | nil => simp
    | cons first rest =>
      have marked : [':'].isPrefixOf (first :: rest) = (':' == first) := Bool.and_true _
      rw [marked, beq_eq_false_iff_ne, List.head?_cons, Ne, Ne, Option.some.injEq, eq_comm]
  -- the three tests of the writer are those of a middle parameter
  simp only [needsColon, Bool.or_eq_false_iff, nonempty, solid, unmarked, Middle]
  constructor
  · rintro ⟨⟨some, spaceless⟩, first⟩
    exact ⟨some, fun c member => ⟨spaceless c member, trailing c member⟩, first⟩
  · rintro ⟨some, plain, first⟩
    exact ⟨⟨some, fun c member => (plain c member).1⟩, first⟩

/-- The parameters the grammar can carry: all but the last are middle ones. -/
def ParamsWellFormed : List String → Prop
  | [] => True
  | [last] => Trailing last
  | param :: rest => Middle param ∧ ParamsWellFormed rest

/-- The middle parameters as they are rendered, and the marked one. -/
def splitTrailing : List String → List String × Option String
  | [] => ([], none)
  | [last] => if needsColon last then ([], some last) else ([last], none)
  | param :: rest => (param :: (splitTrailing rest).1, (splitTrailing rest).2)

theorem utf8_renderParams (params : List String) :
    utf8 (renderParams params) = paramBytes (splitTrailing params).1 (splitTrailing params).2 := by
  induction params using renderParams.induct with
  | case1 => rfl
  | case2 last marked =>
    simp only [renderParams, splitTrailing, marked, if_true, utf8_append]
    rfl
  | case3 last plain =>
    simp only [renderParams, splitTrailing, plain, Bool.false_eq_true, if_false, utf8_append, paramBytes,
      List.append_nil]
    rfl
  | case4 param rest more ih =>
    rw [renderParams, splitTrailing, utf8_append, utf8_append, ih, paramBytes]
    · rfl
    all_goals exact more

theorem splitTrailing_append (params : List String) :
    (splitTrailing params).1 ++ (splitTrailing params).2.toList = params := by
  induction params using splitTrailing.induct with
  | case1 => rfl
  | case2 last marked => simp [splitTrailing, marked]
  | case3 last plain => simp [splitTrailing, plain]
  | case4 param rest more ih =>
    rw [splitTrailing, List.cons_append, ih]
    exact more

theorem ParamsWellFormed.middles {params : List String} (wellFormed : ParamsWellFormed params) :
    ∀ param ∈ (splitTrailing params).1, Middle param := by
  induction params using splitTrailing.induct with
  | case1 => simp [splitTrailing]
  | case2 last marked => simp [splitTrailing, marked]
  | case3 last plain =>
    have middle := (needsColon_false_iff wellFormed).mp (by simpa using plain)
    simpa [splitTrailing, plain] using middle
  | case4 param rest more ih =>
    rw [ParamsWellFormed] at wellFormed
    · rw [splitTrailing]
      · intro other member
        rcases List.mem_cons.mp member with rfl | member
        · exact wellFormed.1
        · exact ih wellFormed.2 other member
      · exact more
    · exact more

theorem ParamsWellFormed.clean {params : List String} (wellFormed : ParamsWellFormed params) :
    Clean (utf8 (renderParams params)) := by
  have last : ∀ field ∈ (splitTrailing params).2, Trailing field := by
    induction params using splitTrailing.induct with
    | case1 => simp [splitTrailing]
    | case2 last marked => simpa [splitTrailing, marked, ParamsWellFormed] using wellFormed
    | case3 last plain => simp [splitTrailing, plain]
    | case4 param rest more ih =>
      rw [ParamsWellFormed] at wellFormed
      · rw [splitTrailing]
        · exact ih wellFormed.2
        · exact more
      · exact more
  rw [utf8_renderParams]
  exact paramBytes_clean (fun field member => trailing_of_middle (wellFormed.middles field member)) last

theorem parseParams_renderParams {params : List String} (wellFormed : ParamsWellFormed params) :
    parseParams (utf8 (renderParams params)) = .ok params := by
  rw [utf8_renderParams, parseParams_paramBytes _ _ wellFormed.middles, splitTrailing_append]

theorem utf8_renderParams_middle {param : String} (middle : Middle param) (rest : List String) :
    utf8 (renderParams (param :: rest)) = space :: (utf8 param ++ utf8 (renderParams rest)) := by
  cases rest with
  | nil =>
    have plain := (needsColon_false_iff (trailing_of_middle middle)).mpr middle
    simp only [renderParams, plain, Bool.false_eq_true, if_false, utf8_append]
    exact (congrArg (space :: ·) (List.append_nil (utf8 param))).symm
  | cons next more =>
    rw [renderParams, utf8_append, utf8_append]
    · rfl
    · exact List.cons_ne_nil next more

theorem token_append_afterToken (buf : Bytes) : token buf ++ afterToken buf = buf :=
  List.takeWhile_append_dropWhile

theorem space_notMem_token (buf : Bytes) : space ∉ token buf := by
  intro member
  have solid := List.all_eq_true.mp (List.all_takeWhile (p := fun b => b != space) (l := buf)) space member
  exact absurd solid (by decide)

theorem afterToken_opening (buf : Bytes) : ∀ first ∈ (afterToken buf).head?, first = space := by
  intro first opens
  have head := List.head?_dropWhile_not (fun b => b != space) buf
  rw [show buf.dropWhile (fun b => b != space) = afterToken buf from rfl, opens] at head
  simpa using head

/-- Skipping spaces drops at least the one that parameters open with. -/
theorem skipSpaces_opening {buf rest : Bytes} {first : UInt8} (skipped : skipSpaces buf = first :: rest)
    (opening : ∀ first ∈ buf.head?, first = space) :
    first ≠ space ∧ rest.length + 2 ≤ buf.length ∧ (∀ b ∈ first :: rest, b ∈ buf) := by
  have suffix : first :: rest <:+ buf := skipped ▸ List.dropWhile_suffix _
  have notSpace : first ≠ space := by
    have head := List.head?_dropWhile_not (fun b => b == space) buf
    rw [skipSpaces] at skipped
    rw [skipped] at head
    simpa using head
  have shorter : (first :: rest).length < buf.length := by
    refine Nat.lt_of_le_of_ne suffix.length_le fun same => notSpace ?_
    rw [← suffix.eq_of_length same] at opening
    exact opening first rfl
  exact ⟨notSpace, shorter, fun b member => suffix.mem member⟩

/-- What the parser reads as parameters can be carried again, in no more bytes. -/
theorem parseParams_wellFormed {buf : Bytes} {params : List String} (parsed : parseParams buf = .ok params)
    (clean : Clean buf) (opening : ∀ first ∈ buf.head?, first = space) :
    ParamsWellFormed params ∧ (utf8 (renderParams params)).length ≤ buf.length := by
  induction buf using parseParams.induct generalizing params with
  | case1 buf skipped =>
    rw [parseParams_end skipped] at parsed
    cases parsed
    exact ⟨trivial, Nat.zero_le _⟩
  | case2 buf rest skipped =>
    rw [parseParams_trailing skipped] at parsed
    obtain ⟨text, read, done⟩ := bind_ok parsed
    cases done
    obtain ⟨-, shorter, inside⟩ := skipSpaces_opening skipped opening
    have bytes := utf8_of_strField read
    have textClean : Clean (utf8 text) := fun b member =>
      clean b (inside b (List.mem_cons_of_mem _ (bytes ▸ member)))
    refine ⟨trailing_of_clean textClean, ?_⟩
    have marked : (utf8 " :").length = 2 := rfl
    have plain : (utf8 " ").length = 1 := rfl
    rw [renderParams]
    split <;> rw [utf8_append, List.length_append, bytes] <;> omega
  | case3 buf first rest skipped unmarked ih =>
    rw [parseParams_middle skipped unmarked] at parsed
    obtain ⟨param, read, parsed⟩ := bind_ok parsed
    obtain ⟨params, parsedRest, done⟩ := bind_ok parsed
    cases done
    obtain ⟨notSpace, shorter, inside⟩ := skipSpaces_opening skipped opening
    have whole := token_append_afterToken rest
    have restClean : Clean rest := fun b member => clean b (inside b (List.mem_cons_of_mem _ member))
    obtain ⟨wellFormed, fewer⟩ := ih parsedRest
      (fun b member => restClean b (whole ▸ List.mem_append_right _ member)) (afterToken_opening rest)
    have bytes := utf8_of_strField read
    -- read as a middle parameter, it is written as one again
    have middle : Middle param := by
      apply middle_of_clean
      · intro b member
        rw [bytes] at member
        rcases List.mem_cons.mp member with rfl | member
        · exact clean b (inside b List.mem_cons_self)
        · exact restClean b (whole ▸ List.mem_append_left _ member)
      · rw [bytes, List.mem_cons, not_or]
        exact ⟨fun same => notSpace same.symm, space_notMem_token rest⟩
      · rw [bytes]
        exact List.cons_ne_nil _ _
      · rw [bytes]
        simpa using unmarked
    constructor
    · cases params with
      | nil => exact trailing_of_middle middle
      | cons next more => exact ⟨middle, wellFormed⟩
    · have lengths := congrArg List.length whole
      rw [List.length_append] at lengths
      rw [utf8_renderParams_middle middle, bytes]
      simp only [List.length_cons, List.length_append]
      omega

/-! ## Tags -/

/-- The pieces of a split: none contains the separator, and they are as long as the whole. -/
theorem splitOn_pieces (x : UInt8) (bytes : Bytes) :
    (∀ piece ∈ bytes.splitOn x, x ∉ piece ∧ ∀ b ∈ piece, b ∈ bytes) ∧
      ((bytes.splitOn x).map fun piece => piece.length + 1).sum = bytes.length + 1 := by
  induction bytes with
  | nil => simp [List.splitOn_nil]
  | cons first rest ih =>
    obtain ⟨inside, total⟩ := ih
    have step : (first :: rest).splitOn x =
        if first == x then [] :: rest.splitOn x else (rest.splitOn x).modifyHead (List.cons first) :=
      List.splitOnP_cons_eq_if_modifyHead first rest
    rw [step]
    split
    · constructor
      · intro piece member
        rcases List.mem_cons.mp member with rfl | member
        · simp
        · exact ⟨(inside piece member).1, fun b inPiece => List.mem_cons_of_mem _ ((inside piece member).2 b inPiece)⟩
      · simp only [List.map_cons, List.sum_cons, total, List.length_nil, List.length_cons]
        omega
    · rename_i other
      have notSeparator : first ≠ x := by simpa using other
      -- any other byte goes on with the first piece of the rest
      obtain ⟨head, tail, pieces⟩ := List.exists_cons_of_ne_nil (List.splitOnP_ne_nil (· == x) rest)
      rw [show rest.splitOn x = head :: tail from pieces] at inside total ⊢
      rw [List.modifyHead_cons]
      constructor
      · intro piece member
        rcases List.mem_cons.mp member with rfl | member
        · obtain ⟨absent, within⟩ := inside head List.mem_cons_self
          refine ⟨?_, fun b inPiece => ?_⟩
          · rw [List.mem_cons, not_or]
            exact ⟨fun same => notSeparator same.symm, absent⟩
          · rcases List.mem_cons.mp inPiece with rfl | inHead
            · exact List.mem_cons_self
            · exact List.mem_cons_of_mem _ (within b inHead)
        · obtain ⟨absent, within⟩ := inside piece (List.mem_cons_of_mem _ member)
          exact ⟨absent, fun b inPiece => List.mem_cons_of_mem _ (within b inPiece)⟩
      · simp only [List.map_cons, List.sum_cons, List.length_cons] at total ⊢
        omega

/-- The bytes a tag must not contain. -/
def TagClean (bytes : Bytes) : Prop :=
  Clean bytes ∧ space ∉ bytes ∧ 0x3b ∉ bytes

theorem tagClean_of_key {b : UInt8} (key : isTagKeyByte b = true ∨ b = 0x2b) :
    b ≠ 0x3d ∧ b ≠ 0x3b ∧ b ≠ space ∧ b ≠ 0x00 ∧ b ≠ 0x0d ∧ b ≠ 0x0a := by
  have refused : ∀ other : UInt8, isTagKeyByte other = false → other ≠ 0x2b → b ≠ other := by
    rintro other no apart rfl
    rcases key with yes | plus
    · rw [yes] at no
      cases no
    · exact apart plus
  exact ⟨refused _ (by decide) (by decide), refused _ (by decide) (by decide), refused _ (by decide) (by decide),
    refused _ (by decide) (by decide), refused _ (by decide) (by decide), refused _ (by decide) (by decide)⟩

/-- A tag the grammar can carry. -/
def Tag.WellFormed (tag : Tag) : Prop :=
  parseTagKey (utf8 tag.key) = .ok tag.key ∧ ∀ value ∈ tag.value, '\x00' ∉ value.toList

theorem utf8_tag (tag : Tag) :
    utf8 tag.render = utf8 tag.key ++
      (tag.value.map fun value => utf8 (escapeValue value)).elim [] fun right => 0x3d :: right := by
  rw [Tag.render]
  cases tag.value with
  | none => exact (List.append_nil _).symm
  | some value =>
    rw [utf8_append, utf8_append, List.append_assoc]
    rfl

theorem parseTag_render {tag : Tag} (wellFormed : tag.WellFormed) : parseTag (utf8 tag.render) = .ok tag := by
  obtain ⟨-, -, keyBytes⟩ := parseTagKey_bytes wellFormed.1
  rw [parseTag, utf8_tag, splitByte_append fun b member => (tagClean_of_key (keyBytes b member)).1]
  dsimp only
  rw [wellFormed.1]
  obtain ⟨key, value⟩ := tag
  cases value with
  | none => rfl
  | some value =>
    simp only [Option.map_some, Option.mapM_some, strField_utf8, bind, Except.bind, pure, Except.pure,
      unescapeValue_escapeValue]
    rfl

theorem escapeChar_clean {c d : Char} (member : c ∈ escapeChar d) :
    c ≠ ';' ∧ c ≠ ' ' ∧ c ≠ '\r' ∧ c ≠ '\n' ∧ (c = '\x00' → d = '\x00') := by
  cases escaped : isEscaped d with
  | false =>
    rw [escapeChar_plain escaped, List.mem_singleton] at member
    subst member
    simp only [isEscaped, Bool.or_eq_false_iff, beq_eq_false_iff_ne, ne_eq] at escaped
    obtain ⟨⟨⟨⟨semicolon, blank⟩, _⟩, cr⟩, lf⟩ := escaped
    exact ⟨semicolon, blank, cr, lf, id⟩
  | true =>
    simp only [isEscaped, Bool.or_eq_true, beq_iff_eq] at escaped
    rcases escaped with (((rfl | rfl) | rfl) | rfl) | rfl <;>
      simp only [escapeChar, List.mem_cons, List.not_mem_nil, or_false] at member <;>
      rcases member with rfl | rfl <;> decide

/-- An escaped value contains nothing that ends a tag. -/
theorem escapeValue_clean {value : String} (whole : '\x00' ∉ value.toList) :
    TagClean (utf8 (escapeValue value)) := by
  have chars : ∀ c ∈ (escapeValue value).toList, c ≠ ';' ∧ c ≠ ' ' ∧ c ≠ '\r' ∧ c ≠ '\n' ∧ c ≠ '\x00' := by
    intro c member
    rw [escapeValue, String.toList_ofList, List.mem_flatMap] at member
    obtain ⟨d, inValue, produced⟩ := member
    obtain ⟨semicolon, blank, cr, lf, nul⟩ := escapeChar_clean produced
    exact ⟨semicolon, blank, cr, lf, fun same => whole (nul same ▸ inValue)⟩
  have read : ∀ b : UInt8, b < 0x80 → b ∈ utf8 (escapeValue value) →
      Char.ofNat b.toNat ∈ (escapeValue value).toList :=
    fun b ascii member => ascii_mem_utf8 member ascii
  refine ⟨fun b member => ⟨?_, ?_, ?_⟩, fun member => ?_, fun member => ?_⟩
  · rintro rfl
    exact (chars _ (read _ (by decide) member)).2.2.2.2 rfl
  · rintro rfl
    exact (chars _ (read _ (by decide) member)).2.2.1 rfl
  · rintro rfl
    exact (chars _ (read _ (by decide) member)).2.2.2.1 rfl
  · exact (chars _ (read _ (by decide) member)).2.1 rfl
  · exact (chars _ (read _ (by decide) member)).1 rfl

theorem Tag.WellFormed.render_clean {tag : Tag} (wellFormed : tag.WellFormed) :
    TagClean (utf8 tag.render) ∧ utf8 tag.render ≠ [] := by
  obtain ⟨-, nonempty, keyBytes⟩ := parseTagKey_bytes wellFormed.1
  have key : ∀ b ∈ utf8 tag.key, b ≠ space ∧ b ≠ 0x3b ∧ b ≠ 0x00 ∧ b ≠ 0x0d ∧ b ≠ 0x0a := by
    intro b member
    obtain ⟨-, semicolon, blank, nul, cr, lf⟩ := tagClean_of_key (keyBytes b member)
    exact ⟨blank, semicolon, nul, cr, lf⟩
  have value : ∀ b ∈ (tag.value.map fun value => utf8 (escapeValue value)).elim [] fun right => 0x3d :: right,
      b ≠ space ∧ b ≠ 0x3b ∧ b ≠ 0x00 ∧ b ≠ 0x0d ∧ b ≠ 0x0a := by
    intro b member
    cases stored : tag.value with
    | none => simp [stored] at member
    | some value =>
      obtain ⟨clean, blank, semicolon⟩ := escapeValue_clean (wellFormed.2 value stored)
      simp only [stored, Option.map_some, Option.elim_some, List.mem_cons] at member
      rcases member with rfl | member
      · decide
      · exact ⟨fun same => blank (same ▸ member), fun same => semicolon (same ▸ member), clean b member⟩
  have all : ∀ b ∈ utf8 tag.render, b ≠ space ∧ b ≠ 0x3b ∧ b ≠ 0x00 ∧ b ≠ 0x0d ∧ b ≠ 0x0a := by
    intro b member
    rw [utf8_tag, List.mem_append] at member
    exact member.elim (key b) (value b)
  refine ⟨⟨fun b member => (all b member).2.2, fun member => (all _ member).1 rfl,
    fun member => (all _ member).2.1 rfl⟩, ?_⟩
  rw [utf8_tag]
  exact List.append_ne_nil_of_left_ne_nil nonempty _

theorem nul_mem_unescapeChars {chars : List Char} (member : '\x00' ∈ unescapeChars chars) : '\x00' ∈ chars := by
  induction chars using unescapeChars.induct with
  | case1 => exact member
  | case2 => cases member
  | case3 c rest ih =>
    obtain ⟨meant, shape, -, nul⟩ := unescapeChars_escape c rest
    rw [shape] at member
    rcases List.mem_cons.mp member with same | member
    · exact List.mem_cons_of_mem _ (nul same.symm ▸ List.mem_cons_self)
    · exact List.mem_cons_of_mem _ (List.mem_cons_of_mem _ (ih member))
  | case4 c rest ended escape ih =>
    have unescaped : c ≠ '\\' := by
      intro backslash
      cases rest with
      | nil => exact ended backslash rfl
      | cons next more => exact escape next more backslash rfl
    rw [unescapeChars_plain unescaped] at member
    rcases List.mem_cons.mp member with same | member
    · exact same ▸ List.mem_cons_self
    · exact List.mem_cons_of_mem _ (ih member)

/-- Decoding a value and escaping it again takes no more bytes than it took on the wire. -/
theorem escapeValue_unescapeValue_length {text : String} (clean : TagClean (utf8 text)) :
    (utf8 (escapeValue (unescapeValue text))).length ≤ (utf8 text).length := by
  obtain ⟨clean, blank, semicolon⟩ := clean
  rw [utf8_length_charBytes, utf8_length_charBytes, escapeValue, unescapeValue, String.toList_ofList,
    String.toList_ofList]
  refine charBytes_escape_unescape_le _ fun c member escaped => ?_
  simp only [isEscaped, Bool.or_eq_true, beq_iff_eq] at escaped
  rcases escaped with (((rfl | rfl) | rfl) | rfl) | rfl
  · exact absurd (mem_utf8_of_mem member (by decide)) semicolon
  · exact absurd (mem_utf8_of_mem member (by decide)) blank
  · rfl
  · exact absurd rfl (clean 0x0d (mem_utf8_of_mem member (by decide))).2.1
  · exact absurd rfl (clean 0x0a (mem_utf8_of_mem member (by decide))).2.2

theorem parseTag_wellFormed {raw : Bytes} {tag : Tag} (parsed : parseTag raw = .ok tag) (clean : TagClean raw) :
    tag.WellFormed ∧ (utf8 tag.render).length ≤ raw.length := by
  obtain ⟨-, whole⟩ := splitByte_spec 0x3d raw
  rw [parseTag] at parsed
  dsimp only at parsed
  obtain ⟨key, readKey, parsed⟩ := bind_ok parsed
  obtain ⟨value, readValue, done⟩ := bind_ok parsed
  cases done
  obtain ⟨keyBytes, -, -⟩ := parseTagKey_bytes readKey
  generalize splitByte 0x3d raw = parts at whole readKey readValue keyBytes
  obtain ⟨left, right⟩ := parts
  dsimp only at whole readKey readValue keyBytes
  have keyAgain : parseTagKey (utf8 key) = .ok key := keyBytes ▸ readKey
  cases right with
  | none =>
    cases readValue
    refine ⟨⟨keyAgain, by simp⟩, ?_⟩
    rw [utf8_tag, keyBytes, ← whole]
    exact Nat.le_refl _
  | some wire =>
    have decoded : ∃ text, strField wire "tag value" = .ok text ∧ value = some (unescapeValue text) := by
      rw [Option.mapM_some] at readValue
      obtain ⟨_, decoded, done⟩ := bind_ok readValue
      cases done
      obtain ⟨text, read, done⟩ := bind_ok decoded
      cases done
      exact ⟨text, read, rfl⟩
    obtain ⟨text, read, rfl⟩ := decoded
    have bytes := utf8_of_strField read
    have inside : ∀ b ∈ wire, b ∈ raw := fun b member =>
      whole ▸ List.mem_append_right _ (List.mem_cons_of_mem _ member)
    -- unescaping never makes a NUL, and escaping again is no longer than the wire text
    have wireClean : TagClean (utf8 text) := by
      rw [bytes]
      exact ⟨fun b member => clean.1 b (inside b member), fun member => clean.2.1 (inside _ member),
        fun member => clean.2.2 (inside _ member)⟩
    refine ⟨⟨keyAgain, ?_⟩, ?_⟩
    · intro value stored
      cases stored
      intro member
      rw [unescapeValue, String.toList_ofList] at member
      exact (wireClean.1 0x00 (mem_utf8_of_mem (nul_mem_unescapeChars member) (by decide))).1 rfl
    · have shorter := escapeValue_unescapeValue_length wireClean
      rw [utf8_tag, keyBytes, ← whole]
      simp only [Option.map_some, Option.elim_some, List.length_append, List.length_cons, bytes] at shorter ⊢
      omega

theorem utf8_renderTags (tags : List Tag) :
    utf8 (renderTags tags) = [0x3b].intercalate (tags.map fun tag => utf8 tag.render) := by
  induction tags using renderTags.induct with
  | case1 => rfl
  | case2 tag => rw [renderTags, List.map_singleton, List.intercalate_singleton]
  | case3 tag rest more ih =>
    have nonempty : (rest.map fun tag => utf8 tag.render) ≠ [] := fun none => more (List.map_eq_nil_iff.mp none)
    rw [renderTags, utf8_append, utf8_append, ih, List.map_cons, List.intercalate_cons_of_ne_nil nonempty]
    · rfl
    · exact more

theorem renderTags_length {tags : List Tag} (some : tags ≠ []) :
    (utf8 (renderTags tags)).length + 1 = (tags.map fun tag => (utf8 tag.render).length + 1).sum := by
  induction tags using renderTags.induct with
  | case1 => exact absurd rfl some
  | case2 tag => rw [renderTags, List.map_singleton, List.sum_singleton]
  | case3 tag rest more ih =>
    have semicolon : (utf8 ";").length = 1 := rfl
    rw [renderTags, utf8_append, utf8_append, List.map_cons, List.sum_cons, ← ih more]
    · simp only [List.length_append, semicolon]
      omega
    · exact more

theorem renderTags_clean {tags : List Tag} (wellFormed : ∀ tag ∈ tags, tag.WellFormed) :
    Clean (utf8 (renderTags tags)) ∧ space ∉ utf8 (renderTags tags) := by
  induction tags using renderTags.induct with
  | case1 => exact ⟨fun b member => absurd member List.not_mem_nil, List.not_mem_nil⟩
  | case2 tag =>
    obtain ⟨⟨clean, blank, -⟩, -⟩ := (wellFormed tag List.mem_cons_self).render_clean
    exact ⟨clean, blank⟩
  | case3 tag rest more ih =>
    obtain ⟨⟨clean, blank, -⟩, -⟩ := (wellFormed tag List.mem_cons_self).render_clean
    obtain ⟨restClean, restBlank⟩ := ih fun other member => wellFormed other (List.mem_cons_of_mem _ member)
    rw [renderTags, utf8_append, utf8_append]
    · constructor
      · intro b member
        simp only [List.mem_append] at member
        rcases member with (member | member) | member
        · exact clean b member
        · rw [List.mem_singleton.mp (show b ∈ [0x3b] from member)]
          decide
        · exact restClean b member
      · simp only [List.mem_append, not_or]
        exact ⟨⟨blank, by decide⟩, restBlank⟩
    · exact more

theorem parseTags_renderTags {tags : List Tag} (some : tags ≠ []) (wellFormed : ∀ tag ∈ tags, tag.WellFormed) :
    parseTags (utf8 (renderTags tags)) = .ok tags := by
  have pieces : (utf8 (renderTags tags)).splitOn 0x3b = tags.map fun tag => utf8 tag.render := by
    rw [utf8_renderTags, List.splitOn_intercalate]
    · intro piece member
      obtain ⟨tag, inTags, rfl⟩ := List.mem_map.mp member
      exact (wellFormed tag inTags).render_clean.1.2.2
    · exact fun none => some (List.map_eq_nil_iff.mp none)
  have kept : (tags.map fun tag => utf8 tag.render).filter (fun raw => !raw.isEmpty) =
      tags.map fun tag => utf8 tag.render := by
    refine List.filter_eq_self.mpr fun piece member => ?_
    obtain ⟨tag, inTags, rfl⟩ := List.mem_map.mp member
    simpa using (wellFormed tag inTags).render_clean.2
  rw [parseTags, pieces, kept]
  clear pieces kept some
  induction tags with
  | nil => rfl
  | cons tag rest ih =>
    have parsedRest := ih fun other member => wellFormed other (List.mem_cons_of_mem _ member)
    rw [List.map_cons, List.mapM_cons, parseTag_render (wellFormed tag List.mem_cons_self), parsedRest]
    rfl

/-- Tags read from clean pieces are well-formed and render to no more bytes. -/
theorem mapM_parseTag_wellFormed {raws : List Bytes} {tags : List Tag} (parsed : raws.mapM parseTag = .ok tags)
    (clean : ∀ raw ∈ raws, TagClean raw) :
    (∀ tag ∈ tags, tag.WellFormed) ∧
      (tags.map fun tag => (utf8 tag.render).length + 1).sum ≤ (raws.map fun raw => raw.length + 1).sum := by
  induction raws generalizing tags with
  | nil =>
    cases parsed
    exact ⟨by simp, Nat.le_refl _⟩
  | cons raw rest ih =>
    rw [List.mapM_cons] at parsed
    obtain ⟨tag, readTag, parsed⟩ := bind_ok parsed
    obtain ⟨more, readMore, done⟩ := bind_ok parsed
    cases done
    obtain ⟨wellFormed, fewer⟩ := parseTag_wellFormed readTag (clean raw List.mem_cons_self)
    obtain ⟨moreWellFormed, moreFewer⟩ := ih readMore fun other member => clean other (List.mem_cons_of_mem _ member)
    constructor
    · intro other member
      rcases List.mem_cons.mp member with rfl | member
      · exact wellFormed
      · exact moreWellFormed other member
    · simp only [List.map_cons, List.sum_cons]
      omega

theorem parseTags_wellFormed {bytes : Bytes} {tags : List Tag} (parsed : parseTags bytes = .ok tags)
    (clean : Clean bytes) (solid : space ∉ bytes) :
    (∀ tag ∈ tags, tag.WellFormed) ∧ (utf8 (renderTags tags)).length ≤ bytes.length := by
  obtain ⟨inside, total⟩ := splitOn_pieces 0x3b bytes
  rw [parseTags] at parsed
  have pieces : ∀ raw ∈ (bytes.splitOn 0x3b).filter fun raw => !raw.isEmpty, TagClean raw := by
    intro raw member
    obtain ⟨separator, within⟩ := inside raw (List.mem_filter.mp member).1
    exact ⟨fun b inRaw => clean b (within b inRaw), fun inRaw => solid (within _ inRaw), separator⟩
  obtain ⟨wellFormed, fewer⟩ := mapM_parseTag_wellFormed parsed pieces
  refine ⟨wellFormed, ?_⟩
  by_cases some : tags = []
  · subst some
    exact Nat.zero_le _
  · have sublist : ((bytes.splitOn 0x3b).filter fun raw => !raw.isEmpty).Sublist (bytes.splitOn 0x3b) :=
      List.filter_sublist
    have filtered := (sublist.map fun raw : Bytes => raw.length + 1).sum_le_sum fun _ _ => Nat.zero_le _
    have length := renderTags_length some
    have bound := Nat.le_trans fewer (Nat.le_trans filtered (Nat.le_of_eq total))
    omega

/-! ## Messages -/

/-- The source of a message with what sets it off from the command. -/
def sourceBytes : Option Source → Bytes
  | none => []
  | some source => colon :: (utf8 source.render ++ [space])

/-- What the parser makes of some line: every part is what its own bytes parse to. -/
structure Message.WellFormed (message : Message) : Prop where
  tags : ∀ tag ∈ message.tags, tag.WellFormed
  source : ∀ source ∈ message.source,
    parseSource (utf8 source.render) = .ok source ∧ Clean (utf8 source.render) ∧ space ∉ utf8 source.render
  command : parseCommand (utf8 message.command.render) = .ok message.command
  params : ParamsWellFormed message.params

theorem utf8_body (message : Message) :
    utf8 message.body =
      sourceBytes message.source ++ (utf8 message.command.render ++ utf8 (renderParams message.params)) := by
  rw [Message.body, utf8_append, utf8_append, List.append_assoc]
  cases message.source with
  | none => rfl
  | some source =>
    rw [Option.elim_some, utf8_append, utf8_append]
    rfl

/-- A command is letters or digits. -/
theorem parseCommand_clean {bytes : Bytes} {command : Command} (parsed : parseCommand bytes = .ok command) :
    bytes ≠ [] ∧ ∀ b ∈ bytes, b ≠ space ∧ b ≠ colon ∧ b ≠ 0x40 ∧ b ≠ 0x00 ∧ b ≠ 0x0d ∧ b ≠ 0x0a := by
  have alphanumeric : bytes ≠ [] ∧ ∀ b ∈ bytes, isAsciiAlphabetic b = true ∨ isAsciiDigit b = true := by
    rw [parseCommand] at parsed
    split at parsed
    · cases parsed
    · rename_i nonempty
      refine ⟨fun empty => nonempty (by rw [empty]; rfl), fun b member => ?_⟩
      split at parsed
      · rename_i numeric
        exact .inr (List.all_eq_true.mp (Bool.and_eq_true _ _ ▸ numeric).2 b member)
      · split at parsed
        · rename_i letters
          exact .inl (List.all_eq_true.mp letters b member)
        · cases parsed
  refine ⟨alphanumeric.1, fun b member => ?_⟩
  -- no separator is a letter or a digit
  have refused : ∀ other : UInt8, isAsciiAlphabetic other = false → isAsciiDigit other = false → b ≠ other := by
    rintro other letter digit rfl
    rcases alphanumeric.2 b member with yes | yes
    · rw [letter] at yes
      cases yes
    · rw [digit] at yes
      cases yes
  exact ⟨refused _ (by decide) (by decide), refused _ (by decide) (by decide), refused _ (by decide) (by decide),
    refused _ (by decide) (by decide), refused _ (by decide) (by decide), refused _ (by decide) (by decide)⟩

theorem token_of_solid {bytes : Bytes} (solid : ∀ b ∈ bytes, b ≠ space) (rest : Bytes) :
    token (bytes ++ space :: rest) = bytes ∧ afterToken (bytes ++ space :: rest) = space :: rest := by
  have scanned : ∀ b ∈ bytes, (b != space) = true := fun b member => by simpa using solid b member
  rw [token, afterToken, List.takeWhile_append_of_pos scanned, List.dropWhile_append_of_pos scanned,
    List.takeWhile_cons_of_neg (by decide), List.dropWhile_cons_of_neg (by decide), List.append_nil]
  exact ⟨rfl, rfl⟩

theorem skipSpaces_space {bytes : Bytes} (solid : ∀ first ∈ bytes.head?, first ≠ space) :
    skipSpaces (space :: bytes) = bytes := by
  rw [skipSpaces, List.dropWhile_cons_of_pos (by decide)]
  cases bytes with
  | nil => rfl
  | cons first rest => exact List.dropWhile_cons_of_neg (by simpa using solid first rfl)

namespace Message.WellFormed

variable {message : Message}

/-- What follows the source starts with a byte of the command. -/
theorem rest_head (wellFormed : message.WellFormed) :
    utf8 message.command.render ++ utf8 (renderParams message.params) ≠ [] ∧
      ∀ first ∈ (utf8 message.command.render ++ utf8 (renderParams message.params)).head?,
        first ≠ space ∧ first ≠ colon ∧ first ≠ 0x40 := by
  obtain ⟨nonempty, clean⟩ := parseCommand_clean wellFormed.command
  obtain ⟨first, rest, shape⟩ := List.exists_cons_of_ne_nil nonempty
  obtain ⟨blank, marked, tagged, -⟩ := clean first (shape ▸ List.mem_cons_self)
  rw [shape, List.cons_append]
  refine ⟨List.cons_ne_nil _ _, fun other same => ?_⟩
  cases same
  exact ⟨blank, marked, tagged⟩

theorem body_head (wellFormed : message.WellFormed) :
    utf8 message.body ≠ [] ∧ ∀ first ∈ (utf8 message.body).head?, first ≠ space ∧ first ≠ 0x40 := by
  rw [utf8_body]
  cases message.source with
  | none =>
    obtain ⟨nonempty, head⟩ := wellFormed.rest_head
    exact ⟨nonempty, fun first same => ⟨(head first same).1, (head first same).2.2⟩⟩
  | some source =>
    refine ⟨List.cons_ne_nil _ _, fun first same => ?_⟩
    cases same
    decide

theorem body_clean (wellFormed : message.WellFormed) : Clean (utf8 message.body) := by
  obtain ⟨-, command⟩ := parseCommand_clean wellFormed.command
  intro b member
  rw [utf8_body, List.mem_append, List.mem_append] at member
  rcases member with member | member | member
  · cases stored : message.source with
    | none =>
      rw [stored] at member
      cases member
    | some source =>
      rw [stored] at member
      simp only [sourceBytes, List.mem_cons, List.mem_append, List.not_mem_nil, or_false] at member
      rcases member with rfl | member | rfl
      · decide
      · exact (wellFormed.source source stored).2.1 b member
      · decide
  · exact (command b member).2.2.2
  · exact wellFormed.params.clean b member

theorem parseSourcePart_body (wellFormed : message.WellFormed) :
    parseSourcePart (utf8 message.body) =
      .ok (message.source, utf8 message.command.render ++ utf8 (renderParams message.params)) := by
  obtain ⟨nonempty, head⟩ := wellFormed.rest_head
  rw [utf8_body]
  generalize utf8 message.command.render ++ utf8 (renderParams message.params) = rest at nonempty head
  cases stored : message.source with
  | none =>
    rw [sourceBytes, List.nil_append, parseSourcePart]
    rintro more rfl
    exact (head colon rfl).2.1 rfl
  | some source =>
    obtain ⟨parsed, clean, solid⟩ := wellFormed.source source stored
    have shape : sourceBytes (some source) ++ rest = 0x3a :: (utf8 source.render ++ space :: rest) := by
      rw [sourceBytes, List.cons_append, List.append_assoc]
      rfl
    obtain ⟨tokenEq, afterEq⟩ := token_of_solid (fun b member same => solid (same ▸ member)) rest
    have spaced : (utf8 source.render ++ space :: rest).contains space = true := by simp
    have named : (utf8 source.render).isEmpty = false := by
      cases bytes : utf8 source.render with
      | nil =>
        rw [bytes] at parsed
        cases parsed
      | cons => rfl
    -- the source is refused where nothing comes after it
    have followed : rest.isEmpty = false := by simpa using nonempty
    rw [shape, parseSourcePart, spaced, tokenEq, named, afterEq, skipSpaces_space fun first same => (head first same).1,
      parsed]
    simp only [bind, Except.bind, followed]
    rfl

end Message.WellFormed

/-! ## What the parser accepts -/

theorem parseTagPart_spec {buf body : Bytes} {tags : List Tag} {limits : Limits}
    (parsed : parseTagPart buf limits = .ok (tags, body)) (clean : Clean buf) :
    (∀ tag ∈ tags, tag.WellFormed) ∧ (utf8 (renderTags tags)).length ≤ limits.maxTagBytes ∧ Clean body := by
  rw [parseTagPart.eq_def] at parsed
  split at parsed
  · rename_i rest
    split at parsed
    · cases parsed
    · split at parsed
      · cases parsed
      · rename_i within
        obtain ⟨read, parsedTags, parsed⟩ := bind_ok parsed
        dsimp only at parsed
        split at parsed
        · cases parsed
        · cases parsed
          have whole := token_append_afterToken rest
          have restClean : Clean rest := fun b member => clean b (List.mem_cons_of_mem _ member)
          obtain ⟨wellFormed, fewer⟩ := parseTags_wellFormed parsedTags
            (fun b member => restClean b (whole ▸ List.mem_append_left _ member))
            (space_notMem_token rest)
          refine ⟨wellFormed, by omega, fun b member => restClean b ?_⟩
          rw [← whole]
          exact List.mem_append_right _ ((List.dropWhile_sublist _).mem member)
  · cases parsed
    exact ⟨by simp, Nat.zero_le _, clean⟩

theorem parseSourcePart_spec {body rest : Bytes} {source : Option Source}
    (parsed : parseSourcePart body = .ok (source, rest)) (clean : Clean body) :
    (∀ known ∈ source, parseSource (utf8 known.render) = .ok known ∧ Clean (utf8 known.render) ∧
      space ∉ utf8 known.render) ∧ (sourceBytes source).length + rest.length ≤ body.length ∧ Clean rest := by
  rw [parseSourcePart.eq_def] at parsed
  split at parsed
  · rename_i tail
    split at parsed
    · cases parsed
    · rename_i spaced
      split at parsed
      · cases parsed
      · obtain ⟨read, parsedSource, parsed⟩ := bind_ok parsed
        dsimp only at parsed
        split at parsed
        · cases parsed
        · rename_i followed
          cases parsed
          have bytes := parseSource_bytes parsedSource
          have whole := token_append_afterToken tail
          have tailClean : Clean tail := fun b member => clean b (List.mem_cons_of_mem _ member)
          -- at least one space is skipped, which pays for the one that is written
          have skipped : (skipSpaces (afterToken tail)).length + 1 ≤ (afterToken tail).length := by
            cases shape : skipSpaces (afterToken tail) with
            | nil => simp [shape] at followed
            | cons first rest => exact (skipSpaces_opening shape (afterToken_opening tail)).2.1
          refine ⟨fun known same => ?_, ?_, fun b member => tailClean b ?_⟩
          · cases same
            rw [bytes]
            exact ⟨parsedSource, fun b member => tailClean b (whole ▸ List.mem_append_left _ member),
              space_notMem_token tail⟩
          · have lengths := congrArg List.length whole
            rw [List.length_append] at lengths
            rw [sourceBytes, bytes]
            simp only [List.length_cons, List.length_append, List.length_nil]
            omega
          · rw [← whole]
            exact List.mem_append_right _ ((List.dropWhile_sublist _).mem member)
  · cases parsed
    exact ⟨by simp, Nat.le_of_eq (Nat.zero_add _), clean⟩

/-- What the parser accepts can be carried again, within the budgets it was read under. -/
theorem parse_wellFormed {input : Bytes} {limits : Limits} {message : Message}
    (parsed : parse input limits = .ok message) :
    message.WellFormed ∧ (utf8 (renderTags message.tags)).length ≤ limits.maxTagBytes ∧
      (utf8 message.body).length ≤ limits.maxBodyBytes := by
  rw [parse] at parsed
  dsimp only at parsed
  generalize stripLineTerminators input = buf at parsed
  split at parsed
  · cases parsed
  · split at parsed
    · cases parsed
    · rename_i legal
      -- the check of the whole line is all that keeps NUL, CR and LF out of its parts
      have clean : Clean buf := by
        intro b member
        have plain := List.any_eq_false.mp (Bool.eq_false_iff.mpr legal) b member
        simpa [not_or, and_assoc] using plain
      obtain ⟨⟨tags, body⟩, readTags, parsed⟩ := bind_ok parsed
      dsimp only at parsed
      obtain ⟨tagsWellFormed, tagsFit, bodyClean⟩ := parseTagPart_spec readTags clean
      split at parsed
      · cases parsed
      · rename_i within
        obtain ⟨⟨source, rest⟩, readSource, parsed⟩ := bind_ok parsed
        dsimp only at parsed
        obtain ⟨sourceWellFormed, fewer, restClean⟩ := parseSourcePart_spec readSource bodyClean
        obtain ⟨command, readCommand, parsed⟩ := bind_ok parsed
        obtain ⟨params, readParams, done⟩ := bind_ok parsed
        cases done
        have whole := token_append_afterToken rest
        have commandBytes := parseCommand_bytes readCommand
        obtain ⟨paramsWellFormed, paramsFewer⟩ := parseParams_wellFormed readParams
          (fun b member => restClean b (whole ▸ List.mem_append_right _ member)) (afterToken_opening rest)
        refine ⟨⟨tagsWellFormed, sourceWellFormed, ?_, paramsWellFormed⟩, tagsFit, ?_⟩
        · rw [commandBytes]
          exact readCommand
        · have lengths := congrArg List.length whole
          rw [List.length_append] at lengths
          rw [utf8_body, commandBytes]
          simp only [List.length_append]
          omega

/-- The tag section of a message with what sets it off from the body. -/
def tagBytes : List Tag → Bytes
  | [] => []
  | tags => 0x40 :: (utf8 (renderTags tags) ++ [space])

theorem utf8_render (message : Message) :
    utf8 message.render = tagBytes message.tags ++ utf8 message.body ++ [0x0d, 0x0a] := by
  rw [Message.render, utf8_append, utf8_append]
  cases message.tags with
  | nil => rfl
  | cons tag rest =>
    rw [if_neg (by simp), utf8_append, utf8_append]
    rfl

namespace Message.WellFormed

variable {message : Message}

theorem tagBytes_clean (wellFormed : message.WellFormed) : Clean (tagBytes message.tags) := by
  have section_clean := (renderTags_clean wellFormed.tags).1
  intro b member
  cases tags : message.tags with
  | nil =>
    rw [tags] at member
    cases member
  | cons tag rest =>
    rw [tags] at member section_clean
    simp only [tagBytes, List.mem_cons, List.mem_append, List.not_mem_nil, or_false] at member
    rcases member with rfl | member | rfl
    · decide
    · exact section_clean b member
    · decide

theorem parseTagPart_line (wellFormed : message.WellFormed) {limits : Limits}
    (fits : (utf8 (renderTags message.tags)).length ≤ limits.maxTagBytes) :
    parseTagPart (tagBytes message.tags ++ utf8 message.body) limits = .ok (message.tags, utf8 message.body) := by
  obtain ⟨nonempty, head⟩ := wellFormed.body_head
  cases tags : message.tags with
  | nil =>
    rw [tagBytes, List.nil_append, parseTagPart]
    intro rest same
    exact (head 0x40 (by rw [same]; rfl)).2 rfl
  | cons tag rest =>
    have parsed := parseTags_renderTags (tags ▸ List.cons_ne_nil tag rest) wellFormed.tags
    have solid := (renderTags_clean wellFormed.tags).2
    rw [tags] at parsed solid fits
    generalize utf8 message.body = body at nonempty head ⊢
    have shape : tagBytes (tag :: rest) ++ body = 0x40 :: (utf8 (renderTags (tag :: rest)) ++ space :: body) := by
      rw [tagBytes, List.cons_append, List.append_assoc]
      · rfl
      · exact List.cons_ne_nil tag rest
    obtain ⟨tokenEq, afterEq⟩ := token_of_solid (fun b member same => solid (same ▸ member)) body
    have spaced : (utf8 (renderTags (tag :: rest)) ++ space :: body).contains space = true := by simp
    -- tags alone are refused, but a message has a command
    have followed : body.isEmpty = false := by simpa using nonempty
    rw [shape, parseTagPart, spaced, tokenEq, if_neg (Nat.not_lt.mpr fits), afterEq,
      skipSpaces_space fun first same => (head first same).1, parsed]
    simp only [bind, Except.bind, followed]
    rfl

/-- A message the grammar can carry renders to a line that parses back, within its budgets. -/
theorem reparse (wellFormed : message.WellFormed) {limits : Limits}
    (tagsFit : (utf8 (renderTags message.tags)).length ≤ limits.maxTagBytes)
    (bodyFits : (utf8 message.body).length ≤ limits.maxBodyBytes) :
    Protocol.parse (utf8 message.render) limits = .ok message := by
  have clean : Clean (tagBytes message.tags ++ utf8 message.body) := by
    intro b member
    exact (List.mem_append.mp member).elim (wellFormed.tagBytes_clean b) (wellFormed.body_clean b)
  have stripped : stripLineTerminators (utf8 message.render) = tagBytes message.tags ++ utf8 message.body := by
    rw [utf8_render]
    exact (stripLineTerminators_crlf fun b member => (clean b member).2).2
  have nonempty : (tagBytes message.tags ++ utf8 message.body).isEmpty = false := by
    rw [List.isEmpty_eq_false_iff]
    exact List.append_ne_nil_of_right_ne_nil _ wellFormed.body_head.1
  have legal : (tagBytes message.tags ++ utf8 message.body).any
      (fun b => b == 0x00 || b == 0x0d || b == 0x0a) = false := by
    rw [List.any_eq_false]
    intro b member
    obtain ⟨nul, cr, lf⟩ := clean b member
    simp [nul, cr, lf]
  have within : ¬ (utf8 message.body).length > limits.maxBodyBytes := Nat.not_lt.mpr bodyFits
  obtain ⟨-, command⟩ := parseCommand_clean wellFormed.command
  -- the command is the token before the first parameter
  obtain ⟨commandToken, commandAfter⟩ := token_paramBytes (fun b member => (command b member).1)
    (splitTrailing message.params).1 (splitTrailing message.params).2
  rw [← utf8_renderParams] at commandToken commandAfter
  simp only [Protocol.parse, stripped, nonempty, legal, wellFormed.parseTagPart_line tagsFit, if_neg within,
    wellFormed.parseSourcePart_body, commandToken, commandAfter, wellFormed.command,
    parseParams_renderParams wellFormed.params, Bool.false_eq_true, if_false, bind, Except.bind, pure, Except.pure]

end Message.WellFormed

/-- Rendering what was parsed and parsing it again gives the same message, within the budgets of
the first line. -/
theorem parse_render {input : Bytes} {limits : Limits} {message : Message}
    (parsed : parse input limits = .ok message) :
    parse (utf8 message.render) limits = .ok message ∧
      (renderTags message.tags).utf8ByteSize ≤ limits.maxTagBytes ∧
        message.body.utf8ByteSize ≤ limits.maxBodyBytes := by
  obtain ⟨wellFormed, tagsFit, bodyFits⟩ := parse_wellFormed parsed
  refine ⟨wellFormed.reparse tagsFit bodyFits, ?_, ?_⟩
  · rw [← utf8_length]
    exact tagsFit
  · rw [← utf8_length]
    exact bodyFits

/-- A tagged message to a channel. -/
def taggedMessage : Message :=
  ⟨[⟨"id", some "a b;c"⟩, ⟨"+draft/x", none⟩], some ⟨"alice", some "ident", some "host.example"⟩, .named "PRIVMSG",
    ["#lean", "hello world"]⟩

theorem taggedMessage_wellFormed : taggedMessage.WellFormed where
  tags := by
    simp only [taggedMessage, List.mem_cons, List.not_mem_nil, or_false, forall_eq_or_imp, forall_eq, Tag.WellFormed]
    decide
  source := by
    intro source same
    cases same
    exact ⟨by decide, by decide, by decide⟩
  command := by decide
  params := ⟨by decide, show Trailing "hello world" by decide⟩

theorem parse_render_tagged :
    Protocol.parse (utf8 taggedMessage.render) .ircv3 = .ok taggedMessage ∧
      (renderTags taggedMessage.tags).utf8ByteSize ≤ Limits.ircv3.maxTagBytes ∧
        taggedMessage.body.utf8ByteSize ≤ Limits.ircv3.maxBodyBytes :=
  parse_render (taggedMessage_wellFormed.reparse (by decide) (by decide))

end Ferrixd.Protocol
