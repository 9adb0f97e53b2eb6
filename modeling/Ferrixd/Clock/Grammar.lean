import Ferrixd.Clock.Civil
import Ferrixd.Data.Digits

/-! # The grammar of server times

Which strings are read as a time, and which of these are one: the fields are parsed as signed numbers and what follows
the seconds is not looked at, so more strings are accepted than the format has. -/

namespace Ferrixd

/-! ## Fields -/

/-- A text of a fixed width that is read as a number. -/
structure TimeField (width : Nat) where
  text : String
  value : Int
  reads : parseI64 text = some value
  sized : (utf8 text).length = width

/-- The fields of a time, each with its own width. -/
structure Fields where
  year : TimeField 4
  month : TimeField 2
  day : TimeField 2
  hour : TimeField 2
  min : TimeField 2
  sec : TimeField 2

namespace Fields

/-- The fields with their separators. -/
def bytes (fields : Fields) : Bytes :=
  utf8 fields.year.text ++ 0x2d :: (utf8 fields.month.text ++ 0x2d :: (utf8 fields.day.text ++ 0x54 ::
    (utf8 fields.hour.text ++ 0x3a :: (utf8 fields.min.text ++ 0x3a :: utf8 fields.sec.text))))

def numbers (fields : Fields) : TimeFields where
  year := fields.year.value
  month := fields.month.value
  day := fields.day.value
  hour := fields.hour.value
  min := fields.min.value
  sec := fields.sec.value

/-- The text begins with the fields and goes on. -/
def Opens (fields : Fields) (s : String) : Prop :=
  ∃ tail, tail ≠ [] ∧ utf8 s = fields.bytes ++ tail

end Fields

theorem TimeField.two (field : TimeField 2) : ∃ a b, utf8 field.text = [a, b] :=
  List.length_eq_two.mp field.sized

theorem TimeField.four (field : TimeField 4) : ∃ a b c d, utf8 field.text = [a, b, c, d] := by
  obtain ⟨text, value, reads, sized⟩ := field
  dsimp only
  match whole : utf8 text, sized with
  | [a, b, c, d], _ => exact ⟨a, b, c, d, rfl⟩

theorem TimeField.read {width : Nat} (field : TimeField width) :
    (fromUtf8? (utf8 field.text)).bind parseI64 = some field.value := by
  rw [fromUtf8?_utf8, Option.bind_some, field.reads]

/-- Fields with their separators are read as their numbers. -/
theorem Fields.Opens.timeFields {fields : Fields} {s : String} (opens : fields.Opens s) :
    timeFields s = some fields.numbers := by
  obtain ⟨tail, more, whole⟩ := opens
  obtain ⟨next, tail, rfl⟩ := List.exists_cons_of_ne_nil more
  obtain ⟨y1, y2, y3, y4, year⟩ := fields.year.four
  obtain ⟨m1, m2, month⟩ := fields.month.two
  obtain ⟨d1, d2, day⟩ := fields.day.two
  obtain ⟨h1, h2, hour⟩ := fields.hour.two
  obtain ⟨n1, n2, min⟩ := fields.min.two
  obtain ⟨s1, s2, sec⟩ := fields.sec.two
  have yearRead := fields.year.read
  have monthRead := fields.month.read
  have dayRead := fields.day.read
  have hourRead := fields.hour.read
  have minRead := fields.min.read
  have secRead := fields.sec.read
  rw [Fields.bytes, year, month, day, hour, min, sec] at whole
  rw [year] at yearRead
  rw [month] at monthRead
  rw [day] at dayRead
  rw [hour] at hourRead
  rw [min] at minRead
  rw [sec] at secRead
  simp [Ferrixd.timeFields, whole, slice, yearRead, monthRead, dayRead, hourRead, minRead, secRead, Fields.numbers]

/-- A part of a byte string up to one of its bytes. -/
theorem drop_eq_part {bytes : Bytes} {start stop : Nat} (order : start ≤ stop) (within : stop < bytes.length) :
    bytes.drop start = (bytes.take stop).drop start ++ bytes[stop] :: bytes.drop (stop + 1) := by
  rw [← List.drop_eq_getElem_cons within]
  have whole : (bytes.take stop ++ bytes.drop stop).drop start = bytes.drop start := by rw [List.take_append_drop]
  rw [← whole, List.drop_append_of_le_length]
  rw [List.length_take]
  omega

theorem utf8_of_fromUtf8? {bytes : Bytes} {text : String} (read : fromUtf8? bytes = some text) : utf8 text = bytes := by
  rw [fromUtf8?, String.fromUTF8?] at read
  split at read
  · cases read
    rfl
  · cases read

/-- What is read as a number between two places is a field. -/
theorem field_of_slice {bytes : Bytes} {start stop width : Nat} {value : Int} (order : start + width = stop)
    (read : (slice bytes start stop).bind parseI64 = some value) :
    ∃ field : TimeField width, field.value = value ∧ utf8 field.text = (bytes.take stop).drop start := by
  obtain ⟨text, sliced, parsed⟩ := Option.bind_eq_some_iff.mp read
  rw [slice] at sliced
  split at sliced
  · rename_i within
    have same := utf8_of_fromUtf8? sliced
    refine ⟨⟨text, value, parsed, ?_⟩, rfl, same⟩
    rw [same, List.length_drop, List.length_take]
    omega
  · cases sliced

/-- Whatever is read as numbers consists of fields. -/
theorem opens_of_timeFields {s : String} {numbers : TimeFields} (read : timeFields s = some numbers) :
    ∃ fields : Fields, fields.Opens s ∧ fields.numbers = numbers := by
  simp only [timeFields] at read
  split at read
  · cases read
  · rename_i long
    split at read
    · cases read
    · rename_i separated
      push Not at separated
      obtain ⟨year, yearRead, read⟩ := Option.bind_eq_some_iff.mp read
      obtain ⟨month, monthRead, read⟩ := Option.bind_eq_some_iff.mp read
      obtain ⟨day, dayRead, read⟩ := Option.bind_eq_some_iff.mp read
      obtain ⟨hour, hourRead, read⟩ := Option.bind_eq_some_iff.mp read
      obtain ⟨min, minRead, read⟩ := Option.bind_eq_some_iff.mp read
      obtain ⟨sec, secRead, read⟩ := Option.bind_eq_some_iff.mp read
      obtain rfl := Option.some.inj read
      obtain ⟨year, rfl, yearText⟩ := @field_of_slice _ 0 4 4 _ rfl yearRead
      obtain ⟨month, rfl, monthText⟩ := @field_of_slice _ 5 7 2 _ rfl monthRead
      obtain ⟨day, rfl, dayText⟩ := @field_of_slice _ 8 10 2 _ rfl dayRead
      obtain ⟨hour, rfl, hourText⟩ := @field_of_slice _ 11 13 2 _ rfl hourRead
      obtain ⟨min, rfl, minText⟩ := @field_of_slice _ 14 16 2 _ rfl minRead
      obtain ⟨sec, rfl, secText⟩ := @field_of_slice _ 17 19 2 _ rfl secRead
      refine ⟨⟨year, month, day, hour, min, sec⟩, ⟨(utf8 s).drop 19, ?_, ?_⟩, rfl⟩
      · intro ended
        have short := List.drop_eq_nil_iff.mp ended
        omega
      · have last : (utf8 s).drop 17 = utf8 sec.text ++ (utf8 s).drop 19 := by
          rw [secText, drop_eq_part (show 17 ≤ 19 by omega) (by omega), ← List.drop_eq_getElem_cons]
        -- the slices and the separators between them are all of the text up to byte 19
        have whole : (utf8 s).drop 0 = utf8 year.text ++ 0x2d :: (utf8 month.text ++ 0x2d :: (utf8 day.text ++ 0x54 ::
            (utf8 hour.text ++ 0x3a :: (utf8 min.text ++ 0x3a :: (utf8 sec.text ++ (utf8 s).drop 19))))) := by
          rw [drop_eq_part (show 0 ≤ 4 by omega) (by omega), drop_eq_part (show 5 ≤ 7 by omega) (by omega),
            drop_eq_part (show 8 ≤ 10 by omega) (by omega), drop_eq_part (show 11 ≤ 13 by omega) (by omega),
            drop_eq_part (show 14 ≤ 16 by omega) (by omega), last, separated.1, separated.2.1, separated.2.2.1,
            separated.2.2.2.1, separated.2.2.2.2, ← yearText, ← monthText, ← dayText, ← hourText, ← minText]
        rw [List.drop_zero] at whole
        refine whole.trans ?_
        simp only [Fields.bytes, List.append_assoc, List.cons_append]

/-! ## Numbers of a fixed width -/

theorem splitSign_digits {digits : List Char} (all : ∀ c ∈ digits, c.isDigit = true) :
    splitSign digits = (false, digits) := by
  rw [splitSign.eq_def]
  split
  · exact absurd (all '+' (List.mem_cons_self ..)) (by decide)
  · exact absurd (all '-' (List.mem_cons_self ..)) (by decide)
  · rfl

theorem splitSign_length (text : List Char) : (splitSign text).2.length ≤ text.length := by
  rw [splitSign.eq_def]
  split
  · exact Nat.le_succ _
  · exact Nat.le_succ _
  · exact le_refl _

/-- Without a sign, the number is the one its digits write. -/
theorem parseI64_digits {text : String} (nonempty : text.toList ≠ []) (digits : ∀ c ∈ text.toList, c.isDigit = true)
    (small : Nat.ofDigitChars 10 text.toList 0 < 2 ^ 63) :
    parseI64 text = some ((Nat.ofDigitChars 10 text.toList 0 : Nat) : Int) := by
  have allDigits : text.toList.all Char.isDigit = true := List.all_eq_true.mpr digits
  have notEmpty : text.toList.isEmpty = false := by
    rw [List.isEmpty_eq_false_iff]
    exact nonempty
  rw [parseI64, splitSign_digits digits]
  simp only [notEmpty, allDigits, Bool.not_true, Bool.or_self, Bool.false_eq_true, if_false]
  rw [if_pos (by omega)]

/-- A number is never further from zero than its digits allow. -/
theorem parseI64_bounds {text : String} {value : Int} (read : parseI64 text = some value) :
    -10 ^ text.toList.length < value ∧ value < 10 ^ text.toList.length := by
  rw [parseI64] at read
  dsimp only at read
  split at read
  · cases read
  · rename_i written
    rw [Bool.or_eq_true, not_or, Bool.not_eq_true', Bool.not_eq_false, List.all_eq_true] at written
    have bound := ofDigitChars_lt written.2
    have wider : 10 ^ (splitSign text.toList).2.length ≤ 10 ^ text.toList.length :=
      Nat.pow_le_pow_right (by decide) (splitSign_length _)
    have cast : ((10 ^ text.toList.length : Nat) : Int) = 10 ^ text.toList.length := by push_cast; rfl
    rw [← cast]
    generalize Nat.ofDigitChars 10 (splitSign text.toList).2 0 = number at bound read
    generalize signed : (if (splitSign text.toList).1 = true then -(number : Int) else number) = v at read
    have near : v = number ∨ v = -number := by
      rw [← signed]
      split
      · exact .inr rfl
      · exact .inl rfl
    split at read
    · obtain rfl := Option.some.inj read
      omega
    · cases read

theorem pad_toList (width value : Nat) :
    (pad width value).toList =
      List.replicate (width - (Nat.toDigits 10 value).length) '0' ++ Nat.toDigits 10 value := by
  rw [pad, String.toList_ofList]

theorem pad_digits (width value : Nat) : ∀ c ∈ (pad width value).toList, c.isDigit = true := by
  intro c member
  rw [pad_toList] at member
  rcases List.mem_append.mp member with zero | digit
  · rw [List.eq_of_mem_replicate zero]
    rfl
  · exact Nat.isDigit_of_mem_toDigits (by decide) (by decide) digit

theorem pad_length {width value : Nat} (small : value < 10 ^ width) (positive : 0 < width) :
    (pad width value).toList.length = width := by
  have short := (Nat.length_toDigits_le_iff (b := 10) (by decide) positive).mpr small
  rw [pad_toList, List.length_append, List.length_replicate]
  omega

theorem pad_value (width value : Nat) : Nat.ofDigitChars 10 (pad width value).toList 0 = value := by
  rw [pad_toList, Nat.ofDigitChars_append, Nat.ofDigitChars_replicate_zero, Nat.mul_zero,
    Nat.ofDigitChars_ten_toDigits]

/-- Digits take a byte each. -/
theorem utf8_digits_length {text : String} (digits : ∀ c ∈ text.toList, c.isDigit = true) :
    (utf8 text).length = text.toList.length := by
  have single : ∀ c ∈ text.toList, (String.utf8EncodeChar c).length = 1 := by
    intro c member
    have small := (isDigit_bounds (digits c member)).2
    rw [String.length_utf8EncodeChar, Char.utf8Size, if_pos]
    exact UInt32.le_iff_toNat_le.mpr (Nat.le_trans small (by decide))
  rw [utf8_eq, List.length_flatMap, List.map_congr_left single, List.map_const', List.sum_replicate_nat,
    Nat.mul_one]

/-- A padded number is a field. -/
def padField {width value : Nat} (small : value < 10 ^ width) (positive : 0 < width) (fits : width ≤ 18) :
    TimeField width where
  text := pad width value
  value := value
  reads := by
    have digits := pad_digits width value
    have nonempty : (pad width value).toList ≠ [] := by
      rw [← List.length_pos_iff, pad_length small positive]
      exact positive
    have bound : value < 2 ^ 63 := by
      have wider : 10 ^ width ≤ 10 ^ 18 := Nat.pow_le_pow_right (by decide) fits
      omega
    have parsed := parseI64_digits nonempty digits (by rwa [pad_value])
    rwa [pad_value] at parsed
  sized := by
    rw [utf8_digits_length (pad_digits width value), pad_length small positive]

/-! ## What is accepted -/

theorem length_le_utf8 (text : String) : text.toList.length ≤ (utf8 text).length := by
  rw [utf8_eq]
  induction text.toList with
  | nil => exact le_refl _
  | cons c chars ih =>
    have positive := List.length_pos_iff.mpr (utf8EncodeChar_ne_nil c)
    rw [List.flatMap_cons, List.length_append, List.length_cons]
    omega

theorem TimeField.bounds {width : Nat} (field : TimeField width) :
    -10 ^ width < field.value ∧ field.value < 10 ^ width := by
  have bounds := parseI64_bounds field.reads
  have short := length_le_utf8 field.text
  rw [field.sized] at short
  have wider : (10 : Int) ^ field.text.toList.length ≤ 10 ^ width := pow_le_pow_right₀ (by decide) short
  omega

/-- A month and a day of a month. -/
def Fields.InRange (fields : Fields) : Prop :=
  (1 ≤ fields.month.value ∧ fields.month.value ≤ 12) ∧ (1 ≤ fields.day.value ∧ fields.day.value ≤ 31)

/-- Nothing on the way to the seconds since the epoch leaves 64 bits. -/
theorem daysFromCivil_bounds {y m d : Int} (year : -10000 < y ∧ y < 10000) (month : 1 ≤ m ∧ m ≤ 12)
    (day : 1 ≤ d ∧ d ≤ 31) : -10000000 < daysFromCivil y m d ∧ daysFromCivil y m d < 10000000 := by
  simp only [daysFromCivil]
  have shifted : -10001 < (if m ≤ 2 then y - 1 else y) ∧ (if m ≤ 2 then y - 1 else y) < 10000 := by
    split <;> omega
  generalize (if m ≤ 2 then y - 1 else y) = z at shifted
  have cycle : 0 ≤ (if m > 2 then m - 3 else m + 9) ∧ (if m > 2 then m - 3 else m + 9) ≤ 11 := by
    split <;> omega
  generalize (if m > 2 then m - 3 else m + 9) = mp at cycle
  have divided : -10400 < (if z ≥ 0 then z else z - 399) ∧ (if z ≥ 0 then z else z - 399) < 10000 := by
    split <;> omega
  generalize (if z ≥ 0 then z else z - 399) = a at divided
  have quotient := Int.mul_tdiv_add_tmod a 400
  have lower := Int.lt_tmod_of_pos a (show (0 : Int) < 400 by decide)
  have upper := Int.tmod_lt_of_pos a (show (0 : Int) < 400 by decide)
  clear year month
  omega

theorem Fields.total_bounds {fields : Fields} (inRange : fields.InRange) :
    -1000000000000 < fields.numbers.total ∧ fields.numbers.total < 1000000000000 := by
  have year := fields.year.bounds
  have hour := fields.hour.bounds
  have min := fields.min.bounds
  have sec := fields.sec.bounds
  have days := daysFromCivil_bounds year inRange.1 inRange.2
  simp only [TimeFields.total, Fields.numbers]
  omega

/-- A text that opens with fields, with a month and a day, from the epoch on. -/
def Accepted (s : String) : Prop :=
  ∃ fields : Fields, fields.Opens s ∧ fields.InRange ∧ 0 ≤ fields.numbers.total

/-- The milliseconds of an accepted text: the fraction is taken for unsigned as it is. -/
theorem parseServerTime_accepted {s : String} {fields : Fields} (opens : fields.Opens s) (inRange : fields.InRange)
    (since : 0 ≤ fields.numbers.total) :
    parseServerTime s = (checkedU64 (fields.numbers.total.toNat * 1000 + asU64 (timeFraction s))).map some := by
  have bounds := Fields.total_bounds inRange
  have notBefore : ¬ fields.numbers.total < 0 := by omega
  have unsigned : asU64 fields.numbers.total = fields.numbers.total.toNat := by
    rw [asU64]
    omega
  have millis : checkedU64 (fields.numbers.total.toNat * 1000) =
      .ok (UInt64.ofNat (fields.numbers.total.toNat * 1000)) := by
    rw [checkedU64, if_pos (by omega)]
  have exact : (UInt64.ofNat (fields.numbers.total.toNat * 1000)).toNat = fields.numbers.total.toNat * 1000 :=
    UInt64.toNat_ofNat_of_lt' (by rw [UInt64.size]; omega)
  have inRange : ¬(¬(1 ≤ fields.numbers.month ∧ fields.numbers.month ≤ 12) ∨
      ¬(1 ≤ fields.numbers.day ∧ fields.numbers.day ≤ 31)) := by
    rw [not_or, not_not, not_not]
    exact inRange
  have checked : checkedI64 fields.numbers.total = .ok fields.numbers.total := by
    rw [checkedI64, if_pos (by omega)]
  rw [parseServerTime, opens.timeFields]
  dsimp only
  rw [if_neg inRange, checked]
  simp only [bind, Except.bind, if_neg notBefore, unsigned, millis, exact]
  cases checkedU64 (fields.numbers.total.toNat * 1000 + asU64 (timeFraction s)) <;> rfl

theorem parseServerTime_rejected {s : String} (rejected : ¬ Accepted s) : parseServerTime s = .ok none := by
  rw [parseServerTime]
  split
  · rfl
  · rename_i numbers read
    obtain ⟨fields, opens, rfl⟩ := opens_of_timeFields read
    split
    · rfl
    · rename_i inRange
      rw [not_or, not_not, not_not] at inRange
      have bounds := @Fields.total_bounds fields inRange
      have before : fields.numbers.total < 0 := by
        by_contra since
        exact rejected ⟨fields, opens, inRange, not_lt.mp since⟩
      have checked : checkedI64 fields.numbers.total = .ok fields.numbers.total := by
        rw [checkedI64, if_pos (by omega)]
      rw [checked]
      simp only [bind, Except.bind, if_pos before]
      rfl

theorem parseServerTime_rejected_iff {s : String} : parseServerTime s = .ok none ↔ ¬ Accepted s := by
  constructor
  · rintro none ⟨fields, opens, inRange, since⟩
    rw [parseServerTime_accepted opens inRange since] at none
    cases read : checkedU64 (fields.numbers.total.toNat * 1000 + asU64 (timeFraction s)) with
    | error panicked =>
      rw [read] at none
      cases none
    | ok sum =>
      rw [read] at none
      cases none
  · exact parseServerTime_rejected

/-! ## Times of the format -/

/-- The numbers of a time. A second may be the leap second, and a day beyond the end of its month counts on. -/
structure Stamp where
  year : Nat
  month : Nat
  day : Nat
  hour : Nat
  min : Nat
  sec : Nat
  millis : Nat
  fourDigits : year < 10 ^ 4
  inYear : 1 ≤ month ∧ month ≤ 12
  inMonth : 1 ≤ day ∧ day ≤ 31
  inDay : hour < 24
  inHour : min < 60
  inMinute : sec ≤ 60
  inSecond : millis < 10 ^ 3

namespace Stamp

/-- `YYYY-MM-DDTHH:MM:SS` -/
def lead (stamp : Stamp) : String :=
  pad 4 stamp.year ++ "-" ++ pad 2 stamp.month ++ "-" ++ pad 2 stamp.day ++ "T" ++
    pad 2 stamp.hour ++ ":" ++ pad 2 stamp.min ++ ":" ++ pad 2 stamp.sec

/-- `YYYY-MM-DDTHH:MM:SS.sssZ` -/
def text (stamp : Stamp) : String :=
  stamp.lead ++ "." ++ pad 3 stamp.millis ++ "Z"

/-- With milliseconds or, where there are none, perhaps without. -/
def Written (stamp : Stamp) (s : String) : Prop :=
  s = stamp.text ∨ stamp.millis = 0 ∧ s = stamp.lead ++ "Z"

/-- The milliseconds since the epoch. -/
def epochMillis (stamp : Stamp) : Int :=
  (((ordinal stamp.year stamp.month stamp.day : Int) - unixEpoch) * 86400 + stamp.hour * 3600 + stamp.min * 60 +
    stamp.sec) * 1000 + stamp.millis

def fields (stamp : Stamp) : Fields where
  year := padField stamp.fourDigits (by decide) (by decide)
  month := @padField 2 stamp.month (by have bounds := stamp.inYear; omega) (by decide) (by decide)
  day := @padField 2 stamp.day (by have bounds := stamp.inMonth; omega) (by decide) (by decide)
  hour := @padField 2 stamp.hour (by have bounds := stamp.inDay; omega) (by decide) (by decide)
  min := @padField 2 stamp.min (by have bounds := stamp.inHour; omega) (by decide) (by decide)
  sec := @padField 2 stamp.sec (by have bounds := stamp.inMinute; omega) (by decide) (by decide)

theorem utf8_lead (stamp : Stamp) : utf8 stamp.lead = stamp.fields.bytes := by
  have dash : utf8 "-" = [0x2d] := rfl
  have separator : utf8 "T" = [0x54] := rfl
  have colon : utf8 ":" = [0x3a] := rfl
  simp only [lead, utf8_append, dash, separator, colon, Fields.bytes, fields, padField, List.append_assoc,
    List.cons_append, List.nil_append]

theorem bytes_length (fields : Fields) : fields.bytes.length = 19 := by
  simp only [Fields.bytes, List.length_append, List.length_cons, fields.year.sized, fields.month.sized,
    fields.day.sized, fields.hour.sized, fields.min.sized, fields.sec.sized]

theorem written_opens {stamp : Stamp} {s : String} (written : stamp.Written s) : stamp.fields.Opens s := by
  rcases written with rfl | ⟨-, rfl⟩
  · refine ⟨utf8 ("." ++ pad 3 stamp.millis ++ "Z"), ?_, ?_⟩
    · exact utf8_ne_nil (by rw [String.toList_append, String.toList_append]; exact List.cons_ne_nil _ _)
    · rw [text, utf8_append, utf8_append, utf8_append, utf8_append, utf8_append, utf8_lead]
      simp only [List.append_assoc]
  · exact ⟨utf8 "Z", utf8_ne_nil (List.cons_ne_nil _ _), by rw [utf8_append, utf8_lead]⟩

theorem written_fraction {stamp : Stamp} {s : String} (written : stamp.Written s) :
    timeFraction s = stamp.millis := by
  have dot : utf8 "." = [0x2e] := rfl
  have zone : utf8 "Z" = [0x5a] := rfl
  have nineteen := bytes_length stamp.fields
  rcases written with rfl | ⟨none, rfl⟩
  · have whole : utf8 stamp.text = stamp.fields.bytes ++ 0x2e :: (utf8 (pad 3 stamp.millis) ++ [0x5a]) := by
      rw [text, utf8_append, utf8_append, utf8_append, utf8_lead, dot, zone]
      simp only [List.append_assoc, List.cons_append, List.nil_append]
    have three : (utf8 (pad 3 stamp.millis)).length = 3 :=
      (@padField 3 stamp.millis stamp.inSecond (by decide) (by decide)).sized
    have read : (fromUtf8? (utf8 (pad 3 stamp.millis))).bind parseI64 = some (stamp.millis : Int) :=
      (@padField 3 stamp.millis stamp.inSecond (by decide) (by decide)).read
    have marked : (utf8 stamp.text)[19]? = some 0x2e := by
      rw [whole, List.getElem?_append_right (by omega), nineteen]
      rfl
    have sliced : slice (utf8 stamp.text) 20 23 = fromUtf8? (utf8 (pad 3 stamp.millis)) := by
      have parts : stamp.fields.bytes ++ 0x2e :: (utf8 (pad 3 stamp.millis) ++ [0x5a]) =
          stamp.fields.bytes ++ [0x2e] ++ utf8 (pad 3 stamp.millis) ++ [0x5a] := by
        simp only [List.append_assoc, List.cons_append, List.nil_append]
      have twenty : (stamp.fields.bytes ++ [0x2e]).length = 20 := by rw [List.length_append, nineteen]; rfl
      have stop : (stamp.fields.bytes ++ [0x2e] ++ utf8 (pad 3 stamp.millis)).length = 23 := by
        rw [List.length_append, twenty, three]
      rw [slice, whole, parts, List.take_left' stop, List.drop_left' twenty, if_pos]
      rw [List.length_append, stop]
      decide
    rw [timeFraction]
    rw [if_pos marked, sliced, read, Option.getD_some]
  · have whole : utf8 (stamp.lead ++ "Z") = stamp.fields.bytes ++ [0x5a] := by
      rw [utf8_append, utf8_lead, zone]
    -- without a dot the fraction is zero, as the stamp has none
    have unmarked : (utf8 (stamp.lead ++ "Z"))[19]? = some 0x5a := by
      rw [whole, List.getElem?_append_right (by omega), nineteen]
      rfl
    rw [timeFraction]
    rw [unmarked, if_neg (by decide), none]
    rfl

theorem fields_inRange (stamp : Stamp) : stamp.fields.InRange := by
  have month := stamp.inYear
  have day := stamp.inMonth
  simp only [Fields.InRange, fields, padField]
  omega

/-- The seconds of the code and those of the calendar. -/
theorem epochMillis_eq (stamp : Stamp) : stamp.epochMillis = stamp.fields.numbers.total * 1000 + stamp.millis := by
  rw [epochMillis, ← daysFromCivil_eq stamp.inYear stamp.inMonth.1]
  rfl

/-- A time of the format is read as its milliseconds, unless it is before the epoch. -/
theorem Written.parse {stamp : Stamp} {s : String} (written : stamp.Written s) :
    (stamp.epochMillis < 0 ∧ parseServerTime s = .ok none) ∨
      ∃ t : UInt64, (t.toNat : Int) = stamp.epochMillis ∧ parseServerTime s = .ok (some t) := by
  have small := stamp.inSecond
  have bounds := Fields.total_bounds stamp.fields_inRange
  have opens := written_opens written
  rw [epochMillis_eq]
  by_cases since : 0 ≤ stamp.fields.numbers.total
  · have fraction : asU64 (timeFraction s) = stamp.millis := by
      rw [written_fraction written, asU64]
      omega
    have fits : stamp.fields.numbers.total.toNat * 1000 + stamp.millis < 2 ^ 64 := by omega
    refine .inr ⟨UInt64.ofNat (stamp.fields.numbers.total.toNat * 1000 + stamp.millis), ?_, ?_⟩
    · rw [UInt64.toNat_ofNat_of_lt' (by rw [UInt64.size]; exact fits)]
      omega
    · rw [parseServerTime_accepted opens stamp.fields_inRange since, fraction, checkedU64, if_pos fits]
      rfl
  · refine .inl ⟨by omega, parseServerTime_rejected ?_⟩
    rintro ⟨others, alsoOpens, -, sinceOthers⟩
    have same := Option.some.inj (opens.timeFields.symm.trans alsoOpens.timeFields)
    rw [← same] at sinceOthers
    exact since sinceOthers

end Stamp

/-- A text is read without overflow, and only as what it says, exactly if it is rejected or one of the format. -/
theorem parseServerTime_faithful_iff (s : String) :
    (∃ read, parseServerTime s = .ok read ∧
        ∀ t, read = some t → ∃ stamp : Stamp, stamp.Written s ∧ (t.toNat : Int) = stamp.epochMillis) ↔
      (Accepted s → ∃ stamp : Stamp, stamp.Written s) := by
  constructor
  · rintro ⟨read, parsed, faithful⟩ accepted
    cases read with
    | none => exact absurd accepted (parseServerTime_rejected_iff.mp parsed)
    | some t =>
      obtain ⟨stamp, written, -⟩ := faithful t rfl
      exact ⟨stamp, written⟩
  · intro wellFormed
    by_cases accepted : Accepted s
    · obtain ⟨stamp, written⟩ := wellFormed accepted
      rcases written.parse with ⟨-, parsed⟩ | ⟨t, value, parsed⟩
      · exact ⟨none, parsed, fun t read => by cases read⟩
      · refine ⟨some t, parsed, fun other read => ?_⟩
        obtain rfl := Option.some.inj read
        exact ⟨stamp, written, value⟩
    · exact ⟨none, parseServerTime_rejected accepted, fun t read => by cases read⟩

/-- A negative fraction overflows the sum. -/
theorem negative_fraction_overflows :
    ¬ ∃ read, parseServerTime "2024-01-01T00:00:00.-01Z" = .ok read ∧
      ∀ t, read = some t →
        ∃ stamp : Stamp, stamp.Written "2024-01-01T00:00:00.-01Z" ∧ (t.toNat : Int) = stamp.epochMillis := by
  have panics : parseServerTime "2024-01-01T00:00:00.-01Z" = .error .overflow := by
    decide
  rintro ⟨read, parsed, -⟩
  rw [panics] at parsed
  cases parsed

/-- Signs are taken in a field, and anything for the zone letter. -/
example : parseServerTime "2024-01-01T-1:00:+0?" = .ok (some 1704063600000) := by
  decide

end Ferrixd