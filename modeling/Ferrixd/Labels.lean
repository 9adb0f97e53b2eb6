import Ferrixd.Codec.Segments
import Ferrixd.Encode
import Ferrixd.State.Presence

/-! # Labeled responses

The replies to a command that came with a label are held back.  At its end the label goes on an `ACK`,
on the only reply, on the batch the handler opened, or on a batch around all replies. -/

namespace Ferrixd

open Protocol

/-- The value of the first tag with a key. -/
def Protocol.Message.tag (message : Message) (key : String) : Option (Option String) :=
  (message.tags.find? fun tag => tag.key = key).map (·.value)

/-- The label under which the replies to a message are held back. -/
def beginLabel (caps : CapSet) (message : Message) : Option String :=
  if caps.has .labeledResponse then (message.tag "label").join else none

/-- What stands after the first space. -/
def afterSpace (text : List Char) : List Char :=
  match text.dropWhile fun c => c != ' ' with
  | [] => []
  | _ :: rest => rest

/-- Whether a rendered line opens a batch. -/
def opensBatch (line : Bytes) : Bool :=
  match fromUtf8? line with
  | none => false
  | some text =>
    let rest := match text.toList with
      -- over the tags and the source to the command
      | '@' :: tagged => afterSpace tagged
      | chars => chars
    let rest := match rest with
      | ':' :: sourced => afterSpace sourced
      | chars => chars
    match rest.splitOn ' ' with
    | verb :: arg :: _ => verb = "BATCH".toList && arg.head? = some '+'
    | _ => false

/-- Put a tag in front of a rendered line, before the tags it may have. -/
def prependTag (line : Bytes) (tag : String) : Bytes :=
  match line with
  | 0x40 :: rest => 0x40 :: (utf8 tag ++ 0x3b :: rest)
  | _ => 0x40 :: (utf8 tag ++ space :: line)

/-- Whether the replies need a batch around them. -/
def needsBatch : List Bytes → Bool
  | [] => false
  | [_] => false
  | first :: _ => !opensBatch first

def ackLine (name : String) : Bytes :=
  Line.server name |>.command "ACK" |>.build

def batchOpening (name reference : String) : Bytes :=
  Line.server name |>.command "BATCH" |>.param ("+" ++ reference) |>.param "labeled-response" |>.build

def batchClosing (name reference : String) : Bytes :=
  Line.server name |>.command "BATCH" |>.param ("-" ++ reference) |>.build

/-- The lines of a labeled response. -/
def labeledLines (name reference label : String) (buffer : List Bytes) : List Bytes :=
  let labelTag := "label=" ++ label
  match buffer with
  | [] => [prependTag (ackLine name) labelTag]
  | [line] => [prependTag line labelTag]
  | first :: rest =>
    -- an answer that is a batch already carries the label itself
    if opensBatch first then prependTag first labelTag :: rest
    else
      prependTag (batchOpening name reference) labelTag ::
        ((first :: rest).map fun line => prependTag line ("batch=" ++ reference)) ++ [batchClosing name reference]

namespace Server

/-- Send the replies that were held back.  A batch around them takes a message id as its reference. -/
def endLabel (s : Server) (id : UInt64) (label : String) (buffer : List Bytes) : Server :=
  let (reference, history) := s.fx.history.nextMsgid
  let s := if needsBatch buffer then s.emit fun fx => { fx with history } else s
  (labeledLines s.info.name reference label buffer).foldl (fun s line => s.send id line) s

end Server

end Ferrixd
