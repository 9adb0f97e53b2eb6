import Ferrixd.S2S

/-! # Line framing

Splitting a byte stream into lines, and what the native read loop makes of a stream. -/

namespace Ferrixd

/-- One outcome of the decoder: a line and the bytes after it, no complete line yet, or a
line over the cap. -/
inductive Decoded where
  | line (line rest : Bytes)
  | incomplete
  | tooLong
  deriving DecidableEq

def newline : UInt8 := 0x0a

def carriageReturn : UInt8 := 0x0d

/-- Drop an optional CR before the newline. -/
def stripCr (line : Bytes) : Bytes :=
  if line.getLast? = some carriageReturn then line.dropLast else line

/-- Split the first line off a buffer, enforcing the line cap. -/
def decode (maxLine : Nat) (src : Bytes) : Decoded :=
  match src.dropWhile fun b => b != newline with
  | [] => if src.length > maxLine then .tooLong else .incomplete
  | _ :: rest =>
    let line := stripCr (src.takeWhile fun b => b != newline)
    if line.length > maxLine then .tooLong else .line line rest

theorem decode_rest_lt {maxLine : Nat} {src line rest : Bytes}
    (decoded : decode maxLine src = .line line rest) : rest.length < src.length := by
  rw [decode] at decoded
  split at decoded
  · split at decoded <;> cases decoded
  · rename_i after shape
    have scanned := Protocol.length_dropWhile_le (fun b => b != newline) src
    rw [shape, List.length_cons] at scanned
    simp only at decoded
    split at decoded
    · cases decoded
    · cases decoded
      omega

/-- The line cap of a link. -/
def linkMaxLine : Nat := 16384

/-- What the read loop makes of one line; an unparsable or unknown one is skipped. -/
def readFrame (line : Bytes) : Option LinkMessage :=
  (Protocol.Message.parse line).toOption.bind LinkMessage.fromMessage

/-- The messages the native read loop acts on, in order, until the stream has no further
complete line or breaks the cap. -/
def receive (src : Bytes) : List LinkMessage :=
  match _decoded : decode linkMaxLine src with
  | .line line rest => (readFrame line).toList ++ receive rest
  | _ => []
termination_by src.length
decreasing_by exact decode_rest_lt _decoded

end Ferrixd
