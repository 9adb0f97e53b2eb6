import Ferrixd.S2S
import Ferrixd.Frame

/-! # The link codec round trip

Encoder and decoder of the link messages are two separate matches.  Each message has a
frame, the line it is encoded to is the frame's, and the decoder inverts the frame's
parameters. -/

namespace Ferrixd.LinkMessage

open Protocol

/-- An optional field whose absence the wire marks with `*`. -/
def OptionalMiddle (field : Option String) : Prop :=
  ∀ value ∈ field, Middle value ∧ value ≠ "*"

/-- A mode string starts with a sign. -/
def SignedFlags (flags : String) : Prop :=
  flags.toList.head? = some '+' ∨ flags.toList.head? = some '-'

/-- Every field is one the grammar can carry in its place. -/
def WellFormed : LinkMessage → Prop
  | .pass token => Trailing token
  | .server name sid description => Middle name ∧ Middle sid ∧ Trailing description
  | .sserver name sid uplink description =>
    Middle name ∧ Middle sid ∧ Middle uplink ∧ Trailing description
  | .ping token => Trailing token
  | .pong token => Trailing token
  | .uid sid u _ n user host account realname =>
    Middle sid ∧ Middle u ∧ Middle n ∧ Middle user ∧ Middle host ∧ Middle account ∧ Trailing realname
  | .nick u n => Middle u ∧ Middle n
  | .quit u reason => Middle u ∧ Trailing reason
  | .userMessage source target _ msgid _ tags text =>
    Middle source ∧ Middle target ∧ OptionalMiddle msgid ∧ OptionalMiddle tags ∧ Trailing text
  | .sjoin channel u _ _ _ => Middle channel ∧ Middle u
  | .spart channel u reason => Middle channel ∧ Middle u ∧ Trailing reason
  | .chanMessage source channel _ msgid _ tags text =>
    Middle source ∧ Middle channel ∧ OptionalMiddle msgid ∧ OptionalMiddle tags ∧ Trailing text
  | .sumode u flags => Middle u ∧ Middle flags
  | .sknock source channel mask => Middle source ∧ Middle channel ∧ Trailing mask
  | .tagMessage source target tags => Middle source ∧ Middle target ∧ Trailing tags
  | .sredact source target msgid reason =>
    Middle source ∧ Middle target ∧ Middle msgid ∧ Trailing reason
  | .srename source old new reason => Middle source ∧ Middle old ∧ Middle new ∧ Trailing reason
  | .stopic channel source setBy _ text =>
    Middle channel ∧ Middle source ∧ Middle setBy ∧ Trailing text
  | .smode channel source _ flags args =>
    Middle channel ∧ Middle source ∧ Middle flags ∧ SignedFlags flags ∧ ∀ arg ∈ args, Middle arg
  | .skick channel source target reason =>
    Middle channel ∧ Middle source ∧ Middle target ∧ Trailing reason
  | .saway u reason => Middle u ∧ ∀ text ∈ reason, Trailing text
  | .saccount u account => Middle u ∧ Middle account
  | .ssetname u realname => Middle u ∧ Trailing realname
  | .schghost u host => Middle u ∧ Middle host
  | .swallops source text => Middle source ∧ Trailing text
  | .sinvite source target channel => Middle source ∧ Middle target ∧ Middle channel
  | .sban _ mask setBy reason => Middle mask ∧ Middle setBy ∧ Trailing reason
  | .kill u reason => Middle u ∧ Trailing reason
  | .squit sid reason => Middle sid ∧ Trailing reason
  | .error reason => Trailing reason

/-- The parts of a message's line. -/
def frame : LinkMessage → Frame
  | .pass token => ⟨"PASS", [], some token⟩
  | .server name sid description => ⟨"SERVER", [name, sid], some description⟩
  | .sserver name sid uplink description => ⟨"SSERVER", [name, sid, uplink], some description⟩
  | .ping token => ⟨"PING", [], some token⟩
  | .pong token => ⟨"PONG", [], some token⟩
  | .uid sid u lamport n user host account realname =>
    ⟨"UID", [sid, u, printU64 lamport, n, user, host, account], some realname⟩
  | .nick u n => ⟨"NICK", [u, n], none⟩
  | .quit u reason => ⟨"QUIT", [u], some reason⟩
  | .userMessage source target notice msgid timeMs tags text =>
    ⟨"SMSG", [source, target, if notice then "N" else "P", msgid.getD "*", timeMs.elim "*" printU64,
      tags.getD "*"], some text⟩
  | .sjoin channel u op voice ts =>
    ⟨"SJOIN", [channel, u, prefixFlags op voice, printU64 ts], none⟩
  | .spart channel u reason => ⟨"SPART", [channel, u], some reason⟩
  | .chanMessage source channel notice msgid timeMs tags text =>
    ⟨"SCMSG", [source, channel, if notice then "N" else "P", msgid.getD "*",
      timeMs.elim "*" printU64, tags.getD "*"], some text⟩
  | .sumode u flags => ⟨"SUMODE", [u, flags], none⟩
  | .sknock source channel mask => ⟨"SKNOCK", [source, channel], some mask⟩
  | .tagMessage source target tags => ⟨"STAGMSG", [source, target], some tags⟩
  | .sredact source target msgid reason => ⟨"SREDACT", [source, target, msgid], some reason⟩
  | .srename source old new reason => ⟨"SRENAME", [source, old, new], some reason⟩
  | .stopic channel source setBy setAt text =>
    ⟨"STOPIC", [channel, source, setBy, printU64 setAt], some text⟩
  | .smode channel source ts flags args =>
    ⟨"SMODE", channel :: source :: printU64 ts :: flags :: args, none⟩
  | .skick channel source target reason => ⟨"SKICK", [channel, source, target], some reason⟩
  | .saway u reason => ⟨"SAWAY", [u], reason⟩
  | .saccount u account => ⟨"SACCOUNT", [u, account], none⟩
  | .ssetname u realname => ⟨"SSETNAME", [u], some realname⟩
  | .schghost u host => ⟨"SCHGHOST", [u, host], none⟩
  | .swallops source text => ⟨"SWALLOPS", [source], some text⟩
  | .sinvite source target channel => ⟨"SINVITE", [source, target, channel], none⟩
  | .sban add mask setBy reason =>
    ⟨"SBAN", [if add then "+" else "-", mask, setBy], some reason⟩
  | .kill u reason => ⟨"KILL", [u], some reason⟩
  | .squit sid reason => ⟨"SQUIT", [sid], some reason⟩
  | .error reason => ⟨"ERROR", [], some reason⟩

theorem toLine_eq_frame (message : LinkMessage) : message.toLine = message.frame.line.build := by
  cases message with
  | saway u reason => cases reason <;> rfl
  | _ => rfl

/-! ## The fields the encoder makes up -/

theorem middle_star : Middle "*" := by decide

theorem middle_printU64 (value : UInt64) : Middle (printU64 value) := by
  have digits := printU64_digits value
  refine ⟨printU64_ne_empty value, ?_, ?_⟩
  · intro c member
    have digit := digits c member
    refine ⟨?_, ?_, ?_, ?_⟩ <;> rintro rfl <;> exact absurd digit (by decide)
  · intro lead
    exact absurd (digits ':' (List.mem_of_mem_head? lead)) (by decide)

theorem middle_prefixFlags (op voice : Bool) : Middle (prefixFlags op voice) := by
  cases op <;> cases voice <;> decide

theorem middle_noticeFlag (notice : Bool) : Middle (if notice then "N" else "P") := by
  cases notice <;> decide

theorem middle_sign (add : Bool) : Middle (if add then "+" else "-") := by
  cases add <;> decide

theorem middle_timeMs (timeMs : Option UInt64) : Middle (timeMs.elim "*" printU64) := by
  cases timeMs with
  | none => exact middle_star
  | some value => exact middle_printU64 value

theorem OptionalMiddle.getD {field : Option String} (optional : OptionalMiddle field) :
    Middle (field.getD "*") := by
  cases field with
  | none => exact middle_star
  | some value => exact (optional value rfl).1

theorem OptionalMiddle.star_getD {field : Option String} (optional : OptionalMiddle field) :
    star (field.getD "*") = field := by
  cases field with
  | none => rfl
  | some value => exact if_neg (optional value rfl).2

theorem parseU64_timeMs (timeMs : Option UInt64) : parseU64 (timeMs.elim "*" printU64) = timeMs := by
  cases timeMs with
  | none => decide
  | some value => exact parseU64_printU64 value

theorem isNotice_flag (source target : String) (notice : Bool) (rest : List String) :
    isNotice (source :: target :: (if notice then "N" else "P") :: rest) = notice := by
  cases notice <;> rfl

theorem prefixFlags_op (op voice : Bool) : containsChar (prefixFlags op voice) 'o' = op := by
  cases op <;> cases voice <;> decide

theorem prefixFlags_voice (op voice : Bool) : containsChar (prefixFlags op voice) 'v' = voice := by
  cases op <;> cases voice <;> decide

/-! ## Both directions -/

theorem frame_verb (message : LinkMessage) :
    message.frame.verb.toList ≠ [] ∧ message.frame.verb.toList.all Char.isAlpha = true ∧
      asciiUpper message.frame.verb = message.frame.verb := by
  cases message <;> dsimp only [frame] <;> decide

theorem frame_middles {message : LinkMessage} (wellFormed : message.WellFormed) :
    ∀ field ∈ message.frame.middles, Middle field := by
  cases message with
  | userMessage source target notice msgid timeMs tags text =>
    obtain ⟨sourceField, targetField, msgidField, tagsField, -⟩ := wellFormed
    simp [frame, sourceField, targetField, msgidField.getD, tagsField.getD, middle_noticeFlag,
      middle_timeMs]
  | chanMessage source channel notice msgid timeMs tags text =>
    obtain ⟨sourceField, channelField, msgidField, tagsField, -⟩ := wellFormed
    simp [frame, sourceField, channelField, msgidField.getD, tagsField.getD, middle_noticeFlag,
      middle_timeMs]
  | _ => simp_all [frame, WellFormed, middle_printU64, middle_prefixFlags, middle_sign]

theorem frame_trailing {message : LinkMessage} (wellFormed : message.WellFormed) :
    ∀ field ∈ message.frame.trailing, Trailing field := by
  cases message <;> simp_all [frame, WellFormed]

theorem frame_valid {message : LinkMessage} (wellFormed : message.WellFormed) :
    message.frame.Valid := by
  obtain ⟨nonempty, alpha, -⟩ := message.frame_verb
  exact ⟨⟨nonempty, alpha⟩, frame_middles wellFormed, frame_trailing wellFormed⟩

theorem fromParams_frame {message : LinkMessage} (wellFormed : message.WellFormed) :
    fromParams message.frame.verb message.frame.params = some message := by
  cases message with
  | userMessage source target notice msgid timeMs tags text =>
    obtain ⟨-, -, msgidField, tagsField, -⟩ := wellFormed
    simp [frame, Frame.params, fromParams, parseMessageTail, msgidField.star_getD,
      tagsField.star_getD, parseU64_timeMs, isNotice_flag]
  | chanMessage source channel notice msgid timeMs tags text =>
    obtain ⟨-, -, msgidField, tagsField, -⟩ := wellFormed
    simp [frame, Frame.params, fromParams, parseMessageTail, msgidField.star_getD,
      tagsField.star_getD, parseU64_timeMs, isNotice_flag]
  | sjoin channel u op voice ts =>
    simp [frame, Frame.params, fromParams, prefixFlags_op, prefixFlags_voice]
  | saway u reason => cases reason <;> rfl
  | sban add mask setBy reason => cases add <;> rfl
  | _ => simp [frame, Frame.params, fromParams]

/-- Within a body budget, parsing a well-formed message's line and decoding it gives the
message back. -/
theorem fromMessage_parse {message : LinkMessage} (wellFormed : message.WellFormed)
    (limits : Limits) (fits : message.toLine.length ≤ limits.maxBodyBytes + 2) :
    (parse message.toLine limits).toOption.bind fromMessage = some message := by
  have size : message.toLine.length = message.frame.line.buf.utf8ByteSize + 2 := by
    rw [toLine_eq_frame, Line.build, utf8_append, List.length_append, utf8_length]
    rfl
  have parsed := (parse_frame (frame_valid wellFormed) limits (by omega)).2
  obtain ⟨-, -, verb⟩ := message.frame_verb
  rw [toLine_eq_frame, parsed]
  simp only [Except.toOption, Option.bind_some, fromMessage, verb]
  exact fromParams_frame wellFormed

/-- Every message whose fields are well formed and whose line fits the body budget survives
the wire. -/
theorem roundTrip (message : LinkMessage) (wellFormed : message.WellFormed)
    (fits : message.toLine.length ≤ rfc1459BodyBytes + 2) :
    (Message.parse message.toLine).toOption.bind fromMessage = some message :=
  fromMessage_parse wellFormed Limits.ircv3 fits

theorem roundTrip_smode :
    (Message.parse (smode "#c" "*" 7 "+bk" ["*!*@evil", "secret"]).toLine).toOption.bind fromMessage =
      some (smode "#c" "*" 7 "+bk" ["*!*@evil", "secret"]) :=
  roundTrip (smode "#c" "*" 7 "+bk" ["*!*@evil", "secret"])
    ⟨by decide, by decide, by decide, .inl (by decide), by decide⟩ (by decide +kernel)

end Ferrixd.LinkMessage
