import Ferrixd.Clock.Grammar

/-! # Server times survive the trip

A formatted time is read back as the instant it was made of, and formatted times are ordered as their instants are. -/

namespace Ferrixd

/-- The year that a time is formatted with. -/
def civilYear (millis : UInt64) : Int :=
  (civilFromDays ((millis.toNat / 1000 / 86400 : Nat) : Int)).1

/-! ## The time that is formatted -/

/-- The date of a stamp is one of the calendar, and its second no leap second. -/
structure Stamp.Civil (stamp : Stamp) : Prop where
  inMonth : stamp.day ≤ monthLength stamp.year stamp.month
  inMinute : stamp.sec < 60

/-- Up to the year 9999, the formatted text is a time of the format, at a date of the calendar. -/
theorem formatServerTime_stamp {millis : UInt64} (year : civilYear millis ≤ 9999) :
    ∃ stamp : Stamp, stamp.Civil ∧ formatServerTime millis = stamp.text ∧ stamp.epochMillis = millis.toNat := by
  obtain ⟨date, found, number⟩ := civilFromDays_date (millis.toNat / 1000 / 86400)
  rw [civilYear, found] at year
  have months := date.inYear
  have days := monthLength_bounds date.year date.month
  have inMonth := date.inMonth
  have positive : 0 < 1000 := by decide
  refine ⟨{
    year := date.year
    month := date.month
    day := date.day
    hour := millis.toNat / 1000 % 86400 / 3600
    min := millis.toNat / 1000 % 86400 % 3600 / 60
    sec := millis.toNat / 1000 % 86400 % 60
    millis := millis.toNat % 1000
    fourDigits := by dsimp only at year; omega
    inYear := months
    inMonth := by omega
    inDay := by omega
    inHour := by omega
    inMinute := by omega
    inSecond := by omega }, ⟨inMonth.2, by dsimp only; omega⟩, ?_, ?_⟩
  · rw [formatServerTime, found]
    simp only [Stamp.text, Stamp.lead, Int.toNat_natCast, String.append_assoc]
  · simp only [Stamp.epochMillis]
    rw [Date.ordinal] at number
    omega

/-! ## Order -/

/-- The order of strings, by their first difference. -/
def TextBefore (a b : List Char) : Prop :=
  List.Lex (fun a b => a.toNat < b.toNat) a b

theorem TextBefore.append_left (lead : List Char) {a b : List Char} (before : TextBefore a b) :
    TextBefore (lead ++ a) (lead ++ b) := by
  induction lead with
  | nil => exact before
  | cons c lead ih => exact .cons ih

/-- A difference within parts of one length decides. -/
theorem TextBefore.append_right {a b : List Char} (before : TextBefore a b) (same : a.length = b.length)
    (left right : List Char) : TextBefore (a ++ left) (b ++ right) := by
  induction before with
  | nil => cases same
  | rel less => exact .rel less
  | cons _ ih => exact .cons (ih (Nat.succ.inj same))

theorem pad_before {width a b : Nat} (less : a < b) (small : b < 10 ^ width) (positive : 0 < width)
    (left right : List Char) : TextBefore ((pad width a).toList ++ left) ((pad width b).toList ++ right) := by
  have same : (pad width a).toList.length = (pad width b).toList.length := by
    rw [pad_length (less.trans small) positive, pad_length small positive]
  refine TextBefore.append_right ?_ same left right
  refine digits_lt same (pad_digits width a) (pad_digits width b) ?_
  rwa [pad_value, pad_value]

/-- A field decides, or is the same and leaves the order to what follows it. -/
theorem field_before {width a b : Nat} (small : b < 10 ^ width) (positive : 0 < width) {left right : List Char}
    (order : a < b ∨ a = b ∧ TextBefore left right) :
    TextBefore ((pad width a).toList ++ left) ((pad width b).toList ++ right) := by
  rcases order with less | ⟨rfl, later⟩
  · exact pad_before less small positive left right
  · exact later.append_left _

namespace Stamp

/-- Earlier by the first field that differs. -/
def Before (a b : Stamp) : Prop :=
  a.year < b.year ∨ a.year = b.year ∧ (a.month < b.month ∨ a.month = b.month ∧ (a.day < b.day ∨ a.day = b.day ∧
    (a.hour < b.hour ∨ a.hour = b.hour ∧ (a.min < b.min ∨ a.min = b.min ∧
      (a.sec < b.sec ∨ a.sec = b.sec ∧ a.millis < b.millis)))))

theorem text_toList (stamp : Stamp) : stamp.text.toList =
    (pad 4 stamp.year).toList ++ (['-'] ++ ((pad 2 stamp.month).toList ++ (['-'] ++ ((pad 2 stamp.day).toList ++
      (['T'] ++ ((pad 2 stamp.hour).toList ++ ([':'] ++ ((pad 2 stamp.min).toList ++ ([':'] ++
        ((pad 2 stamp.sec).toList ++ (['.'] ++ ((pad 3 stamp.millis).toList ++ ['Z'])))))))))))) := by
  have dash : "-".toList = ['-'] := rfl
  have separator : "T".toList = ['T'] := rfl
  have colon : ":".toList = [':'] := rfl
  have dot : ".".toList = ['.'] := rfl
  have zone : "Z".toList = ['Z'] := rfl
  simp only [text, lead, String.toList_append, dash, separator, colon, dot, zone, List.append_assoc]

/-- The fields stand in the order of their weight. -/
theorem Before.text {a b : Stamp} (before : a.Before b) : TextBefore a.text.toList b.text.toList := by
  have month : b.month < 10 ^ 2 := Nat.lt_of_le_of_lt b.inYear.2 (by decide)
  have day : b.day < 10 ^ 2 := Nat.lt_of_le_of_lt b.inMonth.2 (by decide)
  have hour : b.hour < 10 ^ 2 := b.inDay.trans (by decide)
  have min : b.min < 10 ^ 2 := b.inHour.trans (by decide)
  have sec : b.sec < 10 ^ 2 := Nat.lt_of_le_of_lt b.inMinute (by decide)
  rw [text_toList, text_toList]
  -- field by field: the first that differs decides, and all are padded to one width
  apply field_before b.fourDigits (by decide)
  refine before.imp_right (And.imp_right fun before => ?_)
  apply TextBefore.append_left
  apply field_before month (by decide)
  refine before.imp_right (And.imp_right fun before => ?_)
  apply TextBefore.append_left
  apply field_before day (by decide)
  refine before.imp_right (And.imp_right fun before => ?_)
  apply TextBefore.append_left
  apply field_before hour (by decide)
  refine before.imp_right (And.imp_right fun before => ?_)
  apply TextBefore.append_left
  apply field_before min (by decide)
  refine before.imp_right (And.imp_right fun before => ?_)
  apply TextBefore.append_left
  apply field_before sec (by decide)
  refine before.imp_right (And.imp_right fun before => ?_)
  apply TextBefore.append_left
  exact pad_before before b.inSecond (by decide) _ _

def Civil.date {stamp : Stamp} (civil : stamp.Civil) : Date where
  year := stamp.year
  month := stamp.month
  day := stamp.day
  inYear := stamp.inYear
  inMonth := ⟨stamp.inMonth.1, civil.inMonth⟩

/-- Of two times, the one with fewer milliseconds is the earlier. -/
theorem before_of_epochMillis {a b : Stamp} (civilA : a.Civil) (civilB : b.Civil)
    (less : a.epochMillis < b.epochMillis) : a.Before b := by
  have timeA := a.inDay
  have timeB := b.inDay
  have hourA := a.inHour
  have hourB := b.inHour
  have secA := civilA.inMinute
  have secB := civilB.inMinute
  have millisA := a.inSecond
  have millisB := b.inSecond
  have numberA : civilA.date.ordinal = ordinal a.year a.month a.day := rfl
  have numberB : civilB.date.ordinal = ordinal b.year b.month b.day := rfl
  rw [epochMillis, epochMillis, ← numberA, ← numberB] at less
  rw [Before]
  -- dates are ordered as their numbers are; on one date the time of day decides
  rcases Nat.lt_trichotomy civilA.date.ordinal civilB.date.ordinal with earlier | same | later
  · have dates := Date.before_of_ordinal_lt earlier
    simp only [Date.Before, Civil.date] at dates
    omega
  · rw [same] at less
    rcases Date.trichotomy civilA.date civilB.date with before | ⟨year, month, day⟩ | after
    · exact absurd same before.ordinal_lt.ne
    · simp only [Civil.date] at year month day
      omega
    · exact absurd same after.ordinal_lt.ne'
  · omega

end Stamp

/-! ## The trip -/

/-- Up to the year 9999 a formatted time is read back as it was, names a date of the calendar, and comes before the
texts of the later times; day numbers survive the calendar without a bound. -/
theorem serverTime_roundTrip :
    (∀ days : Nat, ∃ date : Date, civilFromDays days = ((date.year : Int), (date.month : Int), (date.day : Int)) ∧
      daysFromCivil date.year date.month date.day = days) ∧
    ∀ millis, civilYear millis ≤ 9999 →
      parseServerTime (formatServerTime millis) = .ok (some millis) ∧
      (∃ stamp : Stamp, stamp.Civil ∧ formatServerTime millis = stamp.text) ∧
      ∀ later, civilYear later ≤ 9999 → millis < later →
        TextBefore (formatServerTime millis).toList (formatServerTime later).toList := by
  constructor
  · intro days
    obtain ⟨date, found, number⟩ := civilFromDays_date days
    refine ⟨date, found, ?_⟩
    have back := daysFromCivil_civilFromDays days
    rwa [found] at back
  · intro millis year
    obtain ⟨stamp, civil, formatted, instant⟩ := formatServerTime_stamp year
    refine ⟨?_, ⟨stamp, civil, formatted⟩, ?_⟩
    · rcases Stamp.Written.parse (.inl formatted) with ⟨early, -⟩ | ⟨t, value, parsed⟩
      · omega
      · have same : t = millis := UInt64.toNat_inj.mp (by omega)
        rw [parsed, same]
    · intro later laterYear less
      obtain ⟨other, otherCivil, otherFormatted, otherInstant⟩ := formatServerTime_stamp laterYear
      rw [formatted, otherFormatted]
      apply Stamp.Before.text
      apply Stamp.before_of_epochMillis civil otherCivil
      rw [instant, otherInstant]
      exact_mod_cast UInt64.lt_iff_toNat_lt.mp less

/-- The last instant of a leap day, and the one after it. -/
theorem serverTime_roundTrip_leapDay :
    parseServerTime (formatServerTime 951868799999) = .ok (some 951868799999) ∧
      TextBefore (formatServerTime 951868799999).toList (formatServerTime 951868800000).toList := by
  have year : civilYear 951868799999 ≤ 9999 := by decide
  have trip := serverTime_roundTrip.2 951868799999 year
  exact ⟨trip.1, trip.2.2 951868800000 (by decide) (by decide)⟩

end Ferrixd
