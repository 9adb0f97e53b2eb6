import Ferrixd.Deliver

/-! # Reading a server time

The way back from a formatted timestamp to epoch milliseconds. -/

namespace Ferrixd

/-- An arithmetic operation left its type. -/
inductive Overflow where
  | overflow
  deriving DecidableEq, Repr

/-- Days since the Unix epoch for a civil date. -/
def daysFromCivil (y m d : Int) : Int :=
  let y := if m ≤ 2 then y - 1 else y
  -- the one division whose dividend can be negative
  let era := (if y ≥ 0 then y else y - 399).tdiv 400
  let yoe := y - era * 400
  let mp := if m > 2 then m - 3 else m + 9
  let doy := (153 * mp + 2) / 5 + d - 1
  let doe := yoe * 365 + yoe / 4 - yoe / 100 + doy
  era * 146097 + doe - 719468

/-- `s.get(start..stop)` -/
def slice (bytes : Bytes) (start stop : Nat) : Option String :=
  if stop ≤ bytes.length then fromUtf8? ((bytes.take stop).drop start) else none

/-- Whether a number begins with a minus, and what follows its sign. -/
def splitSign : List Char → Bool × List Char
  | '+' :: digits => (false, digits)
  | '-' :: digits => (true, digits)
  | digits => (false, digits)

/-- `str::parse::<i64>`: an optional sign, at least one decimal digit, no overflow. -/
def parseI64 (text : String) : Option Int :=
  let negative := (splitSign text.toList).1
  let digits := (splitSign text.toList).2
  if digits.isEmpty || !digits.all Char.isDigit then none
  else
    let value : Int := (Nat.ofDigitChars 10 digits 0 : Nat)
    let signed := if negative then -value else value
    if -9223372036854775808 ≤ signed ∧ signed < 9223372036854775808 then some signed else none

def checkedI64 (value : Int) : Except Overflow Int :=
  if -9223372036854775808 ≤ value ∧ value < 9223372036854775808 then .ok value else .error .overflow

def checkedU64 (value : Nat) : Except Overflow UInt64 :=
  if value < 2 ^ 64 then .ok (UInt64.ofNat value) else .error .overflow

/-- `value as u64` -/
def asU64 (value : Int) : Nat :=
  (value % 18446744073709551616).toNat

structure TimeFields where
  year : Int
  month : Int
  day : Int
  hour : Int
  min : Int
  sec : Int

/-- The numbers between the separators. -/
def timeFields (s : String) : Option TimeFields :=
  let b := utf8 s
  if short : b.length < 20 then none
  else if b[4] ≠ 0x2d ∨ b[7] ≠ 0x2d ∨ b[10] ≠ 0x54 ∨ b[13] ≠ 0x3a ∨ b[16] ≠ 0x3a then none
  else do
    let year ← (slice b 0 4).bind parseI64
    let month ← (slice b 5 7).bind parseI64
    let day ← (slice b 8 10).bind parseI64
    let hour ← (slice b 11 13).bind parseI64
    let min ← (slice b 14 16).bind parseI64
    let sec ← (slice b 17 19).bind parseI64
    return { year, month, day, hour, min, sec }

/-- The number after a `.` where one stands. -/
def timeFraction (s : String) : Int :=
  let b := utf8 s
  if b[19]? = some 0x2e then ((slice b 20 23).bind parseI64).getD 0 else 0

def TimeFields.total (fields : TimeFields) : Int :=
  daysFromCivil fields.year fields.month fields.day * 86400 + fields.hour * 3600 + fields.min * 60 + fields.sec

/-- Parse a `YYYY-MM-DDTHH:MM:SS[.sss]Z` timestamp into epoch milliseconds. -/
def parseServerTime (s : String) : Except Overflow (Option UInt64) :=
  match timeFields s with
  | none => .ok none
  | some fields =>
    if ¬(1 ≤ fields.month ∧ fields.month ≤ 12) ∨ ¬(1 ≤ fields.day ∧ fields.day ≤ 31) then .ok none
    -- hours, minutes and seconds are taken as they are
    else do
      let total ← checkedI64 fields.total
      if total < 0 then return none
      let millis ← checkedU64 (asU64 total * 1000)
      let sum ← checkedU64 (millis.toNat + asU64 (timeFraction s))
      return some sum

end Ferrixd
