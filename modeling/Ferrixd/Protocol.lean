import Ferrixd.Text

/-! # The message grammar

IRC messages with tags, and the parser from the bytes of one line. -/

namespace Ferrixd.Protocol

/-- Length budgets used while parsing a single message. -/
structure Limits where
  maxTagBytes : Nat
  maxBodyBytes : Nat
  deriving DecidableEq

def ircv3TagBytes : Nat := 8191

def rfc1459BodyBytes : Nat := 512

def Limits.ircv3 : Limits :=
  ⟨ircv3TagBytes, rfc1459BodyBytes⟩

structure Tag where
  key : String
  value : Option String
  deriving DecidableEq

structure Source where
  name : String
  user : Option String
  host : Option String
  deriving DecidableEq

inductive Command where
  | named (verb : String)
  | numeric (code : Nat)
  deriving DecidableEq

/-- A parsed message; a trailing parameter is the last element of `params`. -/
structure Message where
  tags : List Tag
  source : Option Source
  command : Command
  params : List String
  deriving DecidableEq

inductive ParseError where
  | empty
  | illegalControlChar
  | tagsTooLong (limit : Nat)
  | bodyTooLong (limit : Nat)
  | missingCommand
  | invalidCommand
  | emptyTagKey
  | invalidTagKey
  | emptySource
  | invalidUtf8 (field : String)
  deriving DecidableEq

/-! ## Tag values -/

def unescapeChars : List Char → List Char
  | [] => []
  | ['\\'] => []
  | '\\' :: c :: rest =>
    (match c with
      | ':' => ';'
      | 's' => ' '
      | 'r' => '\r'
      | 'n' => '\n'
      | other => other) :: unescapeChars rest
  | c :: rest => c :: unescapeChars rest

def unescapeValue (value : String) : String :=
  String.ofList (unescapeChars value.toList)

/-! ## Scanning -/

def space : UInt8 := 0x20

def colon : UInt8 := 0x3a

/-- Strip every trailing CR and LF. -/
def stripLineTerminators (buf : Bytes) : Bytes :=
  (buf.reverse.dropWhile fun b => b == 0x0d || b == 0x0a).reverse

def skipSpaces (buf : Bytes) : Bytes :=
  buf.dropWhile fun b => b == space

/-- The bytes before the first space. -/
def token (buf : Bytes) : Bytes :=
  buf.takeWhile fun b => b != space

/-- The bytes from the first space on. -/
def afterToken (buf : Bytes) : Bytes :=
  buf.dropWhile fun b => b != space

/-- Split at the first occurrence of a byte, dropping it. -/
def splitByte (b : UInt8) (bytes : Bytes) : Bytes × Option Bytes :=
  (bytes.takeWhile fun other => other != b,
    match bytes.dropWhile fun other => other != b with
    | [] => none
    | _ :: rest => some rest)

def isAsciiDigit (b : UInt8) : Bool :=
  0x30 ≤ b && b ≤ 0x39

def isAsciiAlphabetic (b : UInt8) : Bool :=
  (0x41 ≤ b && b ≤ 0x5a) || (0x61 ≤ b && b ≤ 0x7a)

def strField (bytes : Bytes) (field : String) : Except ParseError String :=
  match fromUtf8? bytes with
  | some text => .ok text
  | none => .error (.invalidUtf8 field)

/-! ## The parser -/

def parseCommand (bytes : Bytes) : Except ParseError Command :=
  if bytes.isEmpty then .error .missingCommand
  else if bytes.length == 3 && bytes.all isAsciiDigit then
    .ok (.numeric (bytes.foldl (fun sofar b => 10 * sofar + (b - 0x30).toNat) 0))
  else if bytes.all isAsciiAlphabetic then
    match fromUtf8? bytes with
    | some verb => .ok (.named verb)
    | none => .error .invalidCommand
  else .error .invalidCommand

def parseSource (bytes : Bytes) : Except ParseError Source := do
  let (nameUser, host) := splitByte 0x40 bytes
  let (name, user) := splitByte 0x21 nameUser
  if name.isEmpty then throw .emptySource
  return {
    name := ← strField name "source name"
    user := ← user.mapM fun u => strField u "source user"
    host := ← host.mapM fun h => strField h "source host" }

def isTagKeyByte (b : UInt8) : Bool :=
  isAsciiAlphabetic b || isAsciiDigit b || b == 0x2d || b == 0x2f || b == 0x2e

def parseTagKey (bytes : Bytes) : Except ParseError String :=
  match bytes with
  | [] => .error .emptyTagKey
  | first :: rest =>
    if (isTagKeyByte first || first == 0x2b) && rest.all isTagKeyByte then strField bytes "tag key"
    else .error .invalidTagKey

def parseTag (raw : Bytes) : Except ParseError Tag := do
  let (keyBytes, valueBytes) := splitByte 0x3d raw
  let key ← parseTagKey keyBytes
  let value ← valueBytes.mapM fun v => do return unescapeValue (← strField v "tag value")
  return ⟨key, value⟩

/-- The tags of a section, empty ones between two semicolons skipped. -/
def parseTags (rawTags : Bytes) : Except ParseError (List Tag) :=
  ((rawTags.splitOn 0x3b).filter fun raw => !raw.isEmpty).mapM parseTag

/-- The optional `@tags` section and the bytes after it. -/
def parseTagPart (buf : Bytes) (limits : Limits) : Except ParseError (List Tag × Bytes) :=
  match buf with
  | 0x40 :: rest =>
    if !rest.contains space then .error .missingCommand
    else if (token rest).length > limits.maxTagBytes then .error (.tagsTooLong limits.maxTagBytes)
    else do
      let tags ← parseTags (token rest)
      let body := skipSpaces (afterToken rest)
      if body.isEmpty then throw .missingCommand
      return (tags, body)
  | _ => .ok ([], buf)

/-- The optional `:source` and the bytes after it. -/
def parseSourcePart (buf : Bytes) : Except ParseError (Option Source × Bytes) :=
  match buf with
  | 0x3a :: rest =>
    if !rest.contains space then .error .missingCommand
    else if (token rest).isEmpty then .error .emptySource
    else do
      let source ← parseSource (token rest)
      let body := skipSpaces (afterToken rest)
      if body.isEmpty then throw .missingCommand
      return (some source, body)
  | _ => .ok (none, buf)

theorem length_dropWhile_le {α : Type} (test : α → Bool) (items : List α) :
    (items.dropWhile test).length ≤ items.length :=
  (List.dropWhile_sublist test).length_le

/-- The parameters of a message: middles up to a trailing one, which runs to the end. -/
def parseParams (buf : Bytes) : Except ParseError (List String) :=
  match _shape : skipSpaces buf with
  | [] => .ok []
  | first :: rest =>
    if first = colon then do
      return [← strField rest "trailing"]
    else do
      -- `first` is no space, so the token starting at it is not empty
      let param ← strField (first :: token rest) "param"
      let params ← parseParams (afterToken rest)
      return param :: params
termination_by buf.length
decreasing_by
  have skipped := length_dropWhile_le (fun b => b == space) buf
  have scanned := length_dropWhile_le (fun b => b != space) rest
  simp only [skipSpaces] at _shape
  simp only [_shape, List.length_cons] at skipped
  simp only [afterToken]
  omega

theorem parseParams_end {buf : Bytes} (skipped : skipSpaces buf = []) : parseParams buf = .ok [] := by
  rw [parseParams]
  split
  · rfl
  · rename_i shape
    rw [skipped] at shape
    cases shape

theorem parseParams_trailing {buf rest : Bytes} (skipped : skipSpaces buf = colon :: rest) :
    parseParams buf = do return [← strField rest "trailing"] := by
  rw [parseParams]
  split
  · rename_i shape
    rw [skipped] at shape
    cases shape
  · rename_i first tail shape
    rw [skipped] at shape
    obtain ⟨rfl, rfl⟩ := List.cons.inj shape
    rw [if_pos rfl]

theorem parseParams_middle {buf rest : Bytes} {first : UInt8} (skipped : skipSpaces buf = first :: rest)
    (unmarked : first ≠ colon) :
    parseParams buf = do
      let param ← strField (first :: token rest) "param"
      let params ← parseParams (afterToken rest)
      return param :: params := by
  rw [parseParams]
  split
  · rename_i shape
    rw [skipped] at shape
    cases shape
  · rename_i head tail shape
    rw [skipped] at shape
    obtain ⟨rfl, rfl⟩ := List.cons.inj shape
    rw [if_neg unmarked]

/-- Parse one line, its terminator optional. -/
def parse (input : Bytes) (limits : Limits) : Except ParseError Message :=
  let buf := stripLineTerminators input
  if buf.isEmpty then .error .empty
  else if buf.any fun b => b == 0x00 || b == 0x0d || b == 0x0a then .error .illegalControlChar
  else do
    let (tags, body) ← parseTagPart buf limits
    if body.length > limits.maxBodyBytes then throw (.bodyTooLong limits.maxBodyBytes)
    let (source, rest) ← parseSourcePart body
    let command ← parseCommand (token rest)
    let params ← parseParams (afterToken rest)
    return { tags, source, command, params }

/-- Parse under the default budgets. -/
def Message.parse (input : Bytes) : Except ParseError Message :=
  Protocol.parse input Limits.ircv3

end Ferrixd.Protocol
