import Mathlib.Algebra.Group.Nat.Defs
import Mathlib.Data.List.AList

/-! # Text

The operations on strings and bytes the daemon takes from the standard library, and the
case mapping every registry key goes through. -/

namespace Ferrixd

/-- A byte string as it travels on a socket. -/
abbrev Bytes := List UInt8

/-- `str::as_bytes`. -/
def utf8 (text : String) : Bytes :=
  text.toByteArray.data.toList

/-- `str::from_utf8`. -/
def fromUtf8? (bytes : Bytes) : Option String :=
  String.fromUTF8? ⟨bytes.toArray⟩

/-- The length of the longest start of a UTF-8 sequence, and whether the sequence is complete. -/
def utf8Span : Bytes → Nat × Bool
  | [] => (0, false)
  | lead :: rest =>
    let isTail (b : UInt8) : Bool := 0x80 ≤ b && b ≤ 0xbf
    -- overlong forms, surrogates and what is beyond the last code point show in the second byte
    let isSecond (b : UInt8) : Bool :=
      if lead = 0xe0 then 0xa0 ≤ b && b ≤ 0xbf
      else if lead = 0xed then 0x80 ≤ b && b ≤ 0x9f
      else if lead = 0xf0 then 0x90 ≤ b && b ≤ 0xbf
      else if lead = 0xf4 then 0x80 ≤ b && b ≤ 0x8f
      else isTail b
    let tails :=
      if lead < 0x80 then 0
      else if 0xc2 ≤ lead ∧ lead ≤ 0xdf then 1
      else if 0xe0 ≤ lead ∧ lead ≤ 0xef then 2
      else 3
    let present := match rest with
      | [] => 0
      | second :: more =>
        if isSecond second then 1 + ((more.take (tails - 1)).takeWhile isTail).length else 0
    if lead < 0x80 then (1, true)
    else if lead < 0xc2 ∨ 0xf4 < lead then (1, false)
    else (1 + min present tails, present = tails)

/-- `String::from_utf8_lossy`: every broken sequence becomes one replacement character. -/
def fromUtf8Lossy (bytes : Bytes) : String :=
  match bytes with
  | [] => ""
  | lead :: rest =>
    let (length, complete) := utf8Span (lead :: rest)
    let char := if complete then (fromUtf8? ((lead :: rest).take length)).getD "\uFFFD" else "\uFFFD"
    char ++ fromUtf8Lossy (rest.drop (length - 1))
termination_by bytes.length
decreasing_by
  rw [List.length_drop, List.length_cons]
  omega

/-- `str::starts_with`. -/
def startsWith (text lead : String) : Bool :=
  lead.toList.isPrefixOf text.toList

/-- `str::strip_prefix`. -/
def stripLead? (text lead : String) : Option String :=
  if startsWith text lead then some (String.ofList (text.toList.drop lead.toList.length)) else none

/-- `str::strip_suffix`. -/
def stripTail? (text tail : String) : Option String :=
  if tail.toList.isSuffixOf text.toList then
    some (String.ofList (text.toList.take (text.toList.length - tail.toList.length)))
  else none

/-- `str::to_ascii_lowercase`. -/
def asciiLower (text : String) : String :=
  String.ofList (text.toList.map Char.toLower)

/-- `str::to_ascii_uppercase`. -/
def asciiUpper (text : String) : String :=
  String.ofList (text.toList.map Char.toUpper)

/-- `str::eq_ignore_ascii_case`. -/
def eqIgnoreAsciiCase (left right : String) : Bool :=
  left.toList.map Char.toLower == right.toList.map Char.toLower

/-- `str::contains` for a character. -/
def containsChar (text : String) (c : Char) : Bool :=
  text.toList.contains c

/-- `text.split(c).next()`: what stands before the first `c`. -/
def beforeChar (text : String) (c : Char) : String :=
  String.ofList (text.toList.takeWhile fun other => other != c)

/-- `str::split_once`: what stands before and after the first `c`. -/
def splitOnce (text : String) (c : Char) : Option (String × String) :=
  match text.toList.dropWhile fun other => other != c with
  | [] => none
  | _ :: rest => some (beforeChar text c, String.ofList rest)

/-- `str::parse::<u64>`: an optional `+`, at least one decimal digit, no overflow. -/
def parseU64 (text : String) : Option UInt64 :=
  let digits := match text.toList with
    | '+' :: rest => rest
    | chars => chars
  if digits.isEmpty || !digits.all Char.isDigit then none
  else
    let value := Nat.ofDigitChars 10 digits 0
    if value < 2 ^ 64 then some (UInt64.ofNat value) else none

/-- `str::parse::<u32>`. -/
def parseU32 (text : String) : Option UInt32 :=
  (parseU64 text).bind fun value => if value.toNat < 2 ^ 32 then some (UInt32.ofNat value.toNat) else none

/-- `char::is_whitespace`. -/
def isWhitespace (c : Char) : Bool :=
  (0x09 ≤ c.val && c.val ≤ 0x0d) || c.val == 0x20 || c.val == 0x85 || c.val == 0xa0 || c.val == 0x1680 ||
    (0x2000 ≤ c.val && c.val ≤ 0x200a) || c.val == 0x2028 || c.val == 0x2029 || c.val == 0x202f ||
    c.val == 0x205f || c.val == 0x3000

/-- `str::split_whitespace`. -/
def splitWhitespace (text : String) : List String :=
  ((text.toList.splitOnP isWhitespace).filter fun word => !word.isEmpty).map String.ofList

/-- `str::trim`. -/
def trim (text : String) : String :=
  String.ofList ((text.toList.dropWhile isWhitespace).reverse.dropWhile isWhitespace).reverse

/-- `u64::to_string`. -/
def printU64 (value : UInt64) : String :=
  String.ofList (Nat.toDigits 10 value.toNat)

/-- A decimal number padded with zeros. -/
def pad (width value : Nat) : String :=
  let digits := Nat.toDigits 10 value
  String.ofList (List.replicate (width - digits.length) '0' ++ digits)

theorem eqIgnoreAsciiCase_iff {left right : String} :
    eqIgnoreAsciiCase left right = true ↔ asciiLower left = asciiLower right := by
  simp only [eqIgnoreAsciiCase, asciiLower, beq_iff_eq, String.ofList_inj]

theorem eqIgnoreAsciiCase_comm (left right : String) :
    eqIgnoreAsciiCase left right = eqIgnoreAsciiCase right left := by
  rw [Bool.eq_iff_iff, eqIgnoreAsciiCase_iff, eqIgnoreAsciiCase_iff, eq_comm]

theorem startsWith_iff {text lead : String} :
    startsWith text lead = true ↔ ∃ rest, text = lead ++ rest := by
  rw [startsWith, List.isPrefixOf_iff_prefix]
  constructor
  · rintro ⟨rest, same⟩
    refine ⟨String.ofList rest, ?_⟩
    rw [← String.toList_inj, String.toList_append, String.toList_ofList, same]
  · rintro ⟨rest, rfl⟩
    exact ⟨rest.toList, String.toList_append.symm⟩

theorem stripLead?_some {text lead rest : String} :
    stripLead? text lead = some rest ↔ text = lead ++ rest := by
  rw [stripLead?]
  constructor
  · intro stripped
    split at stripped
    · rename_i leads
      obtain ⟨tail, rfl⟩ := startsWith_iff.mp leads
      rw [String.toList_append, List.drop_left, String.ofList_toList] at stripped
      rw [Option.some.inj stripped]
    · cases stripped
  · rintro rfl
    rw [if_pos (startsWith_iff.mpr ⟨rest, rfl⟩), String.toList_append, List.drop_left,
      String.ofList_toList]

theorem stripTail?_some {text tail rest : String} :
    stripTail? text tail = some rest ↔ text = rest ++ tail := by
  rw [stripTail?]
  constructor
  · intro stripped
    split at stripped
    · rename_i ends
      obtain ⟨before, same⟩ := List.isSuffixOf_iff_suffix.mp ends
      cases stripped
      rw [← String.toList_inj, String.toList_append, String.toList_ofList, ← same, List.length_append,
        Nat.add_sub_cancel, List.take_left]
    · cases stripped
  · rintro rfl
    have ends : tail.toList.isSuffixOf (rest ++ tail).toList = true := by
      rw [String.toList_append]
      exact List.isSuffixOf_iff_suffix.mpr (List.suffix_append _ _)
    rw [if_pos ends, String.toList_append, List.length_append, Nat.add_sub_cancel, List.take_left,
      String.ofList_toList]

/-- Text before a separator is determined where what follows does not contain it. -/
theorem append_separator_inj {left right leftTail rightTail : String} {separator : Char}
    (leftClean : separator ∉ leftTail.toList) (rightClean : separator ∉ rightTail.toList)
    (same : left ++ String.singleton separator ++ leftTail = right ++ String.singleton separator ++ rightTail) :
    left = right ∧ leftTail = rightTail := by
  have chars := congrArg (fun text => text.toList.reverse) same
  simp only [String.toList_append, String.toList_singleton, List.reverse_append, List.reverse_singleton,
    List.singleton_append] at chars
  -- read from the end, the first separator is the one that was put there
  have split : ∀ before after : List Char, separator ∉ before →
      (before ++ separator :: after).takeWhile (· != separator) = before ∧
        (before ++ separator :: after).dropWhile (· != separator) = separator :: after := by
    intro before after clean
    have other : ∀ c ∈ before, (c != separator) = true := by
      intro c member
      simpa using fun same : c = separator => clean (same ▸ member)
    rw [List.takeWhile_append_of_pos other, List.dropWhile_append_of_pos other,
      List.takeWhile_cons_of_neg (by simp), List.dropWhile_cons_of_neg (by simp), List.append_nil]
    exact ⟨rfl, rfl⟩
  obtain ⟨leftTaken, leftDropped⟩ := split _ left.toList.reverse
    (show separator ∉ leftTail.toList.reverse by simpa using leftClean)
  obtain ⟨rightTaken, rightDropped⟩ := split _ right.toList.reverse
    (show separator ∉ rightTail.toList.reverse by simpa using rightClean)
  rw [chars] at leftTaken leftDropped
  have tails := leftTaken.symm.trans rightTaken
  have heads := List.cons.inj (leftDropped.symm.trans rightDropped)
  exact ⟨String.toList_inj.mp (List.reverse_inj.mp heads.2), String.toList_inj.mp (List.reverse_inj.mp tails)⟩

theorem splitOnce_at {left right : String} {c : Char} (clean : c ∉ left.toList) :
    splitOnce (left ++ String.singleton c ++ right) c = some (left, right) := by
  have differ : ∀ other ∈ left.toList, (other != c) = true :=
    fun other member => bne_iff_ne.mpr fun same => clean (same ▸ member)
  have chars : (left ++ String.singleton c ++ right).toList = left.toList ++ c :: right.toList := by
    rw [String.toList_append, String.toList_append, String.toList_singleton, List.append_assoc]
    rfl
  have dropped : (c :: right.toList).dropWhile (fun other => other != c) = c :: right.toList :=
    List.dropWhile_cons_of_neg (by simp)
  have taken : (c :: right.toList).takeWhile (fun other => other != c) = [] :=
    List.takeWhile_cons_of_neg (by simp)
  rw [splitOnce, beforeChar, chars, List.dropWhile_append_of_pos differ, dropped,
    List.takeWhile_append_of_pos differ, taken, List.append_nil]
  simp only [String.ofList_toList]

/-! ## UTF-8 -/

theorem utf8_eq (text : String) : utf8 text = text.toList.flatMap String.utf8EncodeChar := by
  rw [utf8, ← String.utf8Encode_toList]
  simp [List.utf8Encode]

theorem utf8_append (left right : String) : utf8 (left ++ right) = utf8 left ++ utf8 right := by
  rw [utf8_eq, utf8_eq, utf8_eq, String.toList_append, List.flatMap_append]

theorem utf8_length (text : String) : (utf8 text).length = text.utf8ByteSize := by
  rw [utf8, Array.length_toList]
  rfl

@[simp] theorem fromUtf8?_utf8 (text : String) : fromUtf8? (utf8 text) = some text := by
  have bytes : (⟨(utf8 text).toArray⟩ : ByteArray) = text.toByteArray := by
    rw [utf8, Array.toArray_toList]
  rw [fromUtf8?, bytes, String.fromUTF8?, dif_pos text.isValidUTF8]
  rfl

/-- A byte below 128 is never part of a longer encoding. -/
theorem utf8EncodeChar_ascii {b : UInt8} {c : Char} (member : b ∈ String.utf8EncodeChar c)
    (ascii : b < 0x80) : String.utf8EncodeChar c = [b] ∧ c = Char.ofNat b.toNat := by
  have low : b.toNat < 128 := UInt8.lt_iff_toNat_lt.mp ascii
  simp only [String.utf8EncodeChar] at member ⊢
  by_cases small : c.val.toNat ≤ 127
  · have code : c.val.toNat % 2 ^ 8 = c.val.toNat := Nat.mod_eq_of_lt (by omega)
    rw [if_pos small, List.mem_singleton] at member
    subst member
    refine ⟨if_pos small, ?_⟩
    rw [UInt8.toNat_ofNat', code]
    exact (Char.ofNat_toNat c).symm
  · exfalso
    rw [if_neg small] at member
    split at member
    · simp only [List.mem_cons, List.not_mem_nil, or_false] at member
      rcases member with rfl | rfl <;> simp only [UInt8.toNat_ofNat'] at low <;> omega
    · split at member
      · simp only [List.mem_cons, List.not_mem_nil, or_false] at member
        rcases member with rfl | rfl | rfl <;> simp only [UInt8.toNat_ofNat'] at low <;> omega
      · simp only [List.mem_cons, List.not_mem_nil, or_false] at member
        rcases member with rfl | rfl | rfl | rfl <;> simp only [UInt8.toNat_ofNat'] at low <;> omega

theorem ascii_mem_utf8 {b : UInt8} {text : String} (member : b ∈ utf8 text) (ascii : b < 0x80) :
    Char.ofNat b.toNat ∈ text.toList := by
  rw [utf8_eq, List.mem_flatMap] at member
  obtain ⟨c, inText, encoded⟩ := member
  obtain ⟨-, rfl⟩ := utf8EncodeChar_ascii encoded ascii
  exact inText

theorem utf8EncodeChar_ne_nil (c : Char) : String.utf8EncodeChar c ≠ [] := by
  intro empty
  have size := String.length_utf8EncodeChar c
  rw [empty] at size
  exact absurd size (by have := c.utf8Size_pos; simp only [List.length_nil]; omega)

theorem utf8_head_ascii {b : UInt8} {rest : Bytes} {text : String} (shape : utf8 text = b :: rest)
    (ascii : b < 0x80) : text.toList.head? = some (Char.ofNat b.toNat) := by
  rw [utf8_eq] at shape
  cases chars : text.toList with
  | nil =>
    rw [chars, List.flatMap_nil] at shape
    cases shape
  | cons c more =>
    rw [chars, List.flatMap_cons] at shape
    obtain ⟨lead, tail, encoded⟩ := List.exists_cons_of_ne_nil (utf8EncodeChar_ne_nil c)
    rw [encoded, List.cons_append] at shape
    obtain ⟨rfl, -⟩ := List.cons.inj shape
    obtain ⟨-, rfl⟩ := utf8EncodeChar_ascii (encoded ▸ List.mem_cons_self) ascii
    rfl

theorem utf8_ne_nil {text : String} (nonempty : text.toList ≠ []) : utf8 text ≠ [] := by
  obtain ⟨c, more, chars⟩ := List.exists_cons_of_ne_nil nonempty
  rw [utf8_eq, chars, List.flatMap_cons]
  exact List.append_ne_nil_of_left_ne_nil (utf8EncodeChar_ne_nil c) _

/-! ## Numbers -/

theorem printU64_digits (value : UInt64) : ∀ c ∈ (printU64 value).toList, c.isDigit = true := by
  intro c member
  rw [printU64, String.toList_ofList] at member
  exact Nat.isDigit_of_mem_toDigits (by decide) (by decide) member

theorem printU64_ne_empty (value : UInt64) : (printU64 value).toList ≠ [] := by
  rw [printU64, String.toList_ofList]
  exact Nat.toDigits_ne_nil

/-- Printing and parsing an unsigned number is the identity. -/
@[simp] theorem parseU64_printU64 (value : UInt64) : parseU64 (printU64 value) = some value := by
  have digits := printU64_digits value
  have nonempty := printU64_ne_empty value
  have unsigned : (match (printU64 value).toList with
      | '+' :: rest => rest
      | chars => chars) = (printU64 value).toList := by
    split
    · rename_i rest shape
      have plus := digits '+' (by rw [shape]; exact List.mem_cons_self)
      exact absurd plus (by decide)
    · rfl
  have allDigits : (printU64 value).toList.all Char.isDigit = true := List.all_eq_true.mpr digits
  have notEmpty : (printU64 value).toList.isEmpty = false := by
    rw [List.isEmpty_eq_false_iff]
    exact nonempty
  have read : Nat.ofDigitChars 10 (printU64 value).toList 0 = value.toNat := by
    rw [printU64, String.toList_ofList, Nat.ofDigitChars_ten_toDigits]
  rw [parseU64, unsigned]
  simp only [notEmpty, allDigits, read, Bool.not_true, Bool.or_self, Bool.false_eq_true, if_false]
  rw [if_pos (UInt64.toNat_lt value), UInt64.ofNat_toNat]

/-! ## Case mapping -/

/-- The network's case-folding rule. -/
inductive CaseMapping where
  | ascii
  | rfc1459
  deriving DecidableEq, Repr

namespace CaseMapping

def foldChar : CaseMapping → Char → Char
  | .ascii, c => c.toLower
  | .rfc1459, c =>
    if 'A' ≤ c ∧ c ≤ 'Z' then c.toLower
    else if c = '[' then Char.ofNat 0x7b
    else if c = ']' then Char.ofNat 0x7d
    else if c = '\\' then '|'
    else if c = '~' then '^'
    else c

def fold (mapping : CaseMapping) (text : String) : String :=
  String.ofList (text.toList.map mapping.foldChar)

theorem toLower_eq {c other : Char} (plain : other.val.toNat < 65) : c.toLower = other ↔ c = other := by
  have lowered : c.toLower = c ∨ (65 ≤ c.val.toNat ∧ 97 ≤ c.toLower.val.toNat) := by
    delta Char.toLower
    split
    · rename_i upper
      have low : 65 ≤ c.val.toNat := UInt32.le_iff_toNat_le.mp upper.1
      have high : c.val.toNat ≤ 90 := UInt32.le_iff_toNat_le.mp upper.2
      have shift : ('a'.val - 'A'.val).toNat = 32 := rfl
      have code : (c.val + ('a'.val - 'A'.val)).toNat = c.val.toNat + 32 := by
        rw [UInt32.toNat_add, shift]
        omega
      refine .inr ⟨low, ?_⟩
      dsimp only
      omega
    · exact .inl rfl
  rcases lowered with same | ⟨upper, lower⟩
  · rw [same]
  · constructor
    · rintro rfl
      omega
    · rintro rfl
      omega

/-- No other character is folded to a sign or a digit. -/
theorem foldChar_eq (mapping : CaseMapping) {c other : Char} (plain : other.val.toNat < 65) :
    mapping.foldChar c = other ↔ c = other := by
  -- what is folded, and what it is folded to, comes after the plain signs
  have bracket : ∀ folded : Char, 65 ≤ c.val.toNat → 65 ≤ folded.val.toNat → (folded = other ↔ c = other) := by
    intro folded above below
    constructor
    · rintro rfl
      omega
    · rintro rfl
      omega
  cases mapping with
  | ascii => exact toLower_eq plain
  | rfc1459 =>
    rw [foldChar]
    split
    · exact toLower_eq plain
    · split
      · rename_i opening
        exact bracket _ (by rw [opening]; decide) (by decide)
      · split
        · rename_i closing
          exact bracket _ (by rw [closing]; decide) (by decide)
        · split
          · rename_i slash
            exact bracket _ (by rw [slash]; decide) (by decide)
          · split
            · rename_i tilde
              exact bracket _ (by rw [tilde]; decide) (by decide)
            · exact .rfl

end CaseMapping

def maxNickLen : Nat := 30

def maxChannelLen : Nat := 50

def isNickSpecial (c : Char) : Bool :=
  "[]\\\x60_^\x7b|\x7d".toList.contains c

def isNickStart (c : Char) : Bool :=
  c.isAlpha || isNickSpecial c

def isNickRest (c : Char) : Bool :=
  c.isAlphanum || isNickSpecial c || c == '-'

def isValidNick (nick : String) : Bool :=
  match nick.toList with
  | [] => false
  | first :: rest => isNickStart first && decide (rest.length + 1 ≤ maxNickLen) && rest.all isNickRest

/-- `char::is_control`: the Unicode category Cc. -/
def isControl (c : Char) : Bool :=
  c.toNat < 0x20 || (0x7f ≤ c.toNat && c.toNat < 0xa0)

def isValidChannel (name : String) : Bool :=
  match name.toList with
  | '#' :: rest =>
    decide (2 ≤ name.utf8ByteSize) && decide (rest.length + 1 ≤ maxChannelLen) &&
      rest.all fun c => c != ' ' && c != ',' && c != '\x07' && !isControl c
  | _ => false

end Ferrixd
