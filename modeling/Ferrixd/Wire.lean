import Ferrixd.Text

/-! # Outbound lines

A line is built left to right: a source ends with a space, a command adds none, and
every parameter puts one in front of itself. -/

namespace Ferrixd

/-- A partially-built protocol line. -/
structure Line where
  buf : String
  deriving DecidableEq

namespace Line

def server (name : String) : Line :=
  ⟨":" ++ name ++ " "⟩

def user (nick user host : String) : Line :=
  ⟨":" ++ nick ++ "!" ++ user ++ "@" ++ host ++ " "⟩

def bare : Line :=
  ⟨""⟩

def command (line : Line) (verb : String) : Line :=
  ⟨line.buf ++ verb⟩

/-- Append a 3-digit numeric reply code. -/
def code (line : Line) (number : Nat) : Line :=
  ⟨line.buf ++ pad 3 number⟩

def param (line : Line) (value : String) : Line :=
  ⟨line.buf ++ " " ++ value⟩

def trailing (line : Line) (value : String) : Line :=
  ⟨line.buf ++ " :" ++ value⟩

/-- Finish the line with CRLF. -/
def build (line : Line) : Bytes :=
  utf8 (line.buf ++ "\r\n")

/-- The line without its terminator. -/
def body (line : Line) : String :=
  line.buf

end Line

end Ferrixd
