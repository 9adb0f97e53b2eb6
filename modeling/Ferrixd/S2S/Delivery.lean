import Ferrixd.Codec
import Ferrixd.S2S.RoundTrip

/-! # Which frames a peer decodes

The codec admits lines of 16384 bytes, but every line then goes through the parser with
its default budgets, whose body budget is 512 bytes. -/

namespace Ferrixd.LinkMessage

open Protocol

/-- The longest line, CRLF included, the parser accepts from a link. -/
def parsedLineBytes : Nat := rfc1459BodyBytes + 2

theorem toLine_bytes (message : LinkMessage) :
    message.toLine = utf8 message.frame.line.buf ++ [carriageReturn, newline] := by
  rw [toLine_eq_frame, Line.build, utf8_append]
  rfl

theorem toLine_length (message : LinkMessage) :
    message.toLine.length = message.frame.line.buf.utf8ByteSize + 2 := by
  rw [toLine_bytes, List.length_append, utf8_length]
  rfl

/-- The decoder splits a message's line off the front of any stream. -/
theorem decode_toLine {message : LinkMessage} (wellFormed : message.WellFormed)
    (budget : message.toLine.length ≤ linkMaxLine) (rest : Bytes) :
    decode linkMaxLine (message.toLine ++ rest) = .line (utf8 message.frame.line.buf) rest := by
  have clean := (frame_valid wellFormed).line_clean
  have scanned : ∀ b ∈ utf8 message.frame.line.buf ++ [carriageReturn], (b != newline) = true := by
    intro b member
    rw [List.mem_append, List.mem_singleton] at member
    rcases member with member | rfl
    · exact bne_iff_ne.mpr (clean b member).2.2
    · decide
  have stream : message.toLine ++ rest =
      (utf8 message.frame.line.buf ++ [carriageReturn]) ++ newline :: rest := by
    rw [toLine_bytes]
    simp
  have stripped : stripCr (utf8 message.frame.line.buf ++ [carriageReturn]) =
      utf8 message.frame.line.buf := by
    rw [stripCr, if_pos List.getLast?_concat, List.dropLast_concat]
  have short : ¬ (utf8 message.frame.line.buf).length > linkMaxLine := by
    rw [utf8_length]
    have := toLine_length message
    omega
  rw [stream, decode, List.dropWhile_append_of_pos scanned, List.takeWhile_append_of_pos scanned,
    List.dropWhile_cons_of_neg (by decide), List.takeWhile_cons_of_neg (by decide), List.append_nil]
  simp only [stripped, if_neg short]

/-- The parser takes the line of a well-formed message exactly if it fits the body budget. -/
theorem readFrame_line {message : LinkMessage} (wellFormed : message.WellFormed) :
    readFrame (utf8 message.frame.line.buf) =
      if message.toLine.length ≤ parsedLineBytes then some message else none := by
  have valid := frame_valid wellFormed
  obtain ⟨-, -, verb⟩ := message.frame_verb
  have size := toLine_length message
  rw [readFrame, Message.parse]
  split
  · rename_i fits
    rw [parsedLineBytes] at fits
    have within : message.frame.line.buf.utf8ByteSize ≤ Limits.ircv3.maxBodyBytes := by
      change _ ≤ rfc1459BodyBytes
      omega
    rw [(parse_frame valid Limits.ircv3 within).1]
    simp only [Except.toOption, Option.bind_some, fromMessage, verb]
    exact fromParams_frame wellFormed
  · rename_i long
    rw [parsedLineBytes] at long
    have beyond : Limits.ircv3.maxBodyBytes < message.frame.line.buf.utf8ByteSize := by
      change rfc1459BodyBytes < _
      omega
    rw [parse_frame_overlong valid Limits.ircv3 beyond]
    rfl

/-- Of the well-formed messages sent within the link's line budget, the peer acts on those
whose line is at most 514 bytes and skips the others. -/
theorem receive_toLines (sent : List LinkMessage) (wellFormed : ∀ message ∈ sent, message.WellFormed)
    (budget : ∀ message ∈ sent, message.toLine.length ≤ linkMaxLine) :
    receive (sent.flatMap toLine) =
      sent.filter fun message => message.toLine.length ≤ parsedLineBytes := by
  induction sent with
  | nil => rw [receive]; rfl
  | cons message rest ih =>
    have split := decode_toLine (wellFormed message List.mem_cons_self)
      (budget message List.mem_cons_self) (rest.flatMap toLine)
    have received := ih (fun other member => wellFormed other (List.mem_cons_of_mem _ member))
      fun other member => budget other (List.mem_cons_of_mem _ member)
    rw [List.flatMap_cons, receive]
    split
    · rename_i line tail decoded
      rw [split] at decoded
      cases decoded
      rw [received, readFrame_line (wellFormed message List.mem_cons_self), List.filter_cons]
      by_cases fits : message.toLine.length ≤ parsedLineBytes
      · simp [fits]
      · simp [fits]
    · rename_i other
      exact absurd split (other _ _)

/-- A link delivers everything sent over it exactly if no line is longer than 514 bytes. -/
theorem receive_eq_sent_iff (sent : List LinkMessage)
    (wellFormed : ∀ message ∈ sent, message.WellFormed)
    (budget : ∀ message ∈ sent, message.toLine.length ≤ linkMaxLine) :
    receive (sent.flatMap toLine) = sent ↔
      ∀ message ∈ sent, message.toLine.length ≤ parsedLineBytes := by
  rw [receive_toLines sent wellFormed budget, List.filter_eq_self]
  simp only [decide_eq_true_eq]

/-- The peer's reader takes the message's line as it was meant. -/
def Fits (message : LinkMessage) : Prop :=
  message.WellFormed ∧ message.toLine.length ≤ parsedLineBytes

theorem Fits.budget {message : LinkMessage} (fits : message.Fits) : message.toLine.length ≤ linkMaxLine :=
  fits.2.trans (by decide)

/-- A link delivers messages that fit, all of them and in order. -/
theorem receive_fitting {sent : List LinkMessage} (fits : ∀ message ∈ sent, message.Fits) :
    receive (sent.flatMap toLine) = sent :=
  (receive_eq_sent_iff sent (fun message member => (fits message member).1)
    fun message member => (fits message member).budget).mpr fun message member => (fits message member).2

theorem receive_two_pings :
    receive ([ping "001", ping "002"].flatMap toLine) = [ping "001", ping "002"] :=
  (receive_eq_sent_iff [ping "001", ping "002"]
    (List.forall_mem_cons.mpr ⟨(by decide : Trailing _),
      List.forall_mem_singleton.mpr (by decide : Trailing _)⟩)
    (by decide +kernel)).mpr (by decide +kernel)

/-- The frame that relays a client's legal `PRIVMSG #lean :xxx…` of 495 bytes. -/
def relayedPrivmsg : LinkMessage :=
  chanMessage "alice!~alice@host.example.net" "#lean" false (some "001-0000000000000001")
    (some 1700000000000) none (String.ofList (List.replicate 480 'x'))

theorem relayedPrivmsg_wellFormed : relayedPrivmsg.WellFormed := by
  refine ⟨by decide, by decide, ?_, ?_, ?_⟩
  · rintro value ⟨⟩
    decide
  · rintro value ⟨⟩
  · intro c member
    rw [String.toList_ofList] at member
    obtain rfl := List.eq_of_mem_replicate member
    decide

theorem relayedPrivmsg_length : relayedPrivmsg.toLine.length = 564 := by decide +kernel

/-- A well-formed frame of 564 bytes, far below the link's budget, is skipped. -/
theorem receive_relayedPrivmsg :
    relayedPrivmsg.WellFormed ∧ relayedPrivmsg.toLine.length ≤ linkMaxLine ∧
      receive relayedPrivmsg.toLine = [] := by
  have budget : relayedPrivmsg.toLine.length ≤ linkMaxLine := by
    rw [relayedPrivmsg_length]
    decide
  refine ⟨relayedPrivmsg_wellFormed, budget, ?_⟩
  have received := receive_toLines [relayedPrivmsg]
    (List.forall_mem_singleton.mpr relayedPrivmsg_wellFormed) (List.forall_mem_singleton.mpr budget)
  rw [List.flatMap_singleton] at received
  rw [received, List.filter_cons, relayedPrivmsg_length]
  rfl

end Ferrixd.LinkMessage
