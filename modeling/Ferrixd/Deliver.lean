import Ferrixd.Wire

/-! # Per-recipient delivery

Capabilities, timestamps, and events whose tags depend on the recipient's capabilities. -/

namespace Ferrixd

/-! ## Time -/

/-- Convert days since the Unix epoch to a civil date. -/
def civilFromDays (days : Int) : Int × Int × Int :=
  let z := days + 719468
  let era := z / 146097
  let doe := z - era * 146097
  let yoe := (doe - doe / 1460 + doe / 36524 - doe / 146096) / 365
  let doy := doe - (365 * yoe + yoe / 4 - yoe / 100)
  let mp := (5 * doy + 2) / 153
  let day := doy - (153 * mp + 2) / 5 + 1
  let month := if mp < 10 then mp + 3 else mp - 9
  let year := yoe + era * 400 + (if month ≤ 2 then 1 else 0)
  (year, month, day)

/-- Format epoch milliseconds as `YYYY-MM-DDTHH:MM:SS.sssZ`. -/
def formatServerTime (millis : UInt64) : String :=
  let secs := millis.toNat / 1000
  let ms := millis.toNat % 1000
  let rem := secs % 86400
  let (year, month, day) := civilFromDays (secs / 86400 : Nat)
  pad 4 year.toNat ++ "-" ++ pad 2 month.toNat ++ "-" ++ pad 2 day.toNat ++ "T" ++
    pad 2 (rem / 3600) ++ ":" ++ pad 2 (rem % 3600 / 60) ++ ":" ++ pad 2 (rem % 60) ++ "." ++
    pad 3 ms ++ "Z"

/-! ## Capabilities -/

inductive Cap where
  | sasl
  | messageTags
  | serverTime
  | echoMessage
  | accountTag
  | awayNotify
  | extendedJoin
  | chgHost
  | setName
  | multiPrefix
  | userhostInNames
  | capNotify
  | inviteNotify
  | batch
  | chatHistory
  | standardReplies
  | metadata
  | labeledResponse
  | multiline
  | accountRegistration
  | accountNotify
  | extendedMonitor
  | readMarker
  | eventPlayback
  | messageRedaction
  | channelRename
  | noImplicitNames
  | preAway
  | extendedIsupport
  deriving DecidableEq, Repr

/-- The set of capabilities a client has enabled. -/
abbrev CapSet := List Cap

def CapSet.has (caps : CapSet) (cap : Cap) : Bool :=
  caps.contains cap

/-! ## Events -/

/-- A propagated event: a fixed body and the tags only some recipients have negotiated. -/
structure Event where
  body : String
  time : Option String := none
  account : Option String := none
  msgid : Option String := none
  clientTags : Option String := none
  suffix : Option (Cap × String) := none
  batch : Option (Cap × String) := none
  bot : Bool := false
  deriving DecidableEq

namespace Event

/-- The tags of the event a recipient sees, in wire order. -/
def tagsFor (event : Event) (caps : CapSet) : List String :=
  (event.batch.elim [] fun (cap, reference) => if caps.has cap then ["batch=" ++ reference] else []) ++
  (event.clientTags.elim [] fun tags => if caps.has .messageTags then [tags] else []) ++
  (event.time.elim [] fun time => if caps.has .serverTime then ["time=" ++ time] else []) ++
  (event.msgid.elim [] fun msgid => if caps.has .messageTags then ["msgid=" ++ msgid] else []) ++
  (event.account.elim [] fun account =>
    if caps.has .accountTag then ["account=" ++ account] else []) ++
  (if event.bot && caps.has .messageTags then ["bot"] else [])

def renderFor (event : Event) (caps : CapSet) : Bytes :=
  let tags := event.tagsFor caps
  let lead := if tags.isEmpty then "" else "@" ++ ";".intercalate tags ++ " "
  let suffix := event.suffix.elim "" fun (cap, text) => if caps.has cap then text else ""
  utf8 (lead ++ event.body ++ suffix ++ "\r\n")

end Event

end Ferrixd
