import Ferrixd.Command.Monitor

/-! # WATCH

The older spelling of MONITOR.  Both share the list of a client, but WATCH puts nicks into it without looking how
long it is. -/

namespace Ferrixd

def rplWatchOff : Nat := 602
def rplNowOn : Nat := 604
def rplNowOff : Nat := 605
def rplWatchList : Nat := 606
def rplEndOfWatchList : Nat := 607

/-- The parameters of a reply about a nick, from the mask of its holder. -/
def watchParams (mask nick : String) : List String :=
  let (name, rest) := (splitOnce mask '!').getD (nick, "*@*")
  let (user, host) := (splitOnce rest '@').getD ("*", "*")
  [name, user, host, "0"]

namespace Server

/-- Watch a nick, and say whether it is there. -/
def watchToken (s : Server) (id : UInt64) (nick : String) : Server :=
  let (s, asked) := s.watchNick id nick
  match asked.mask with
  | some mask => s.numeric id rplNowOn (watchParams mask nick) (some "is online")
  | none => s.numeric id rplNowOff [nick, "*", "*", "0"] (some "is offline")

def unwatchToken (s : Server) (id : UInt64) (nick : String) : Server :=
  (unwatchNick id s (s.fold nick)).numeric id rplWatchOff [nick, "*", "*", "0"] (some "stopped watching")

/-- One line about a nick that is watched. -/
def listToken (id : UInt64) (s : Server) (folded : String) : Server :=
  match s.presenceMask folded with
  | some mask => s.numeric id rplWatchList (watchParams mask folded) none
  | none => s.numeric id rplWatchList [folded, "*", "*", "0"] none

/-- A word of `WATCH`. -/
def watchWord (id : UInt64) (s : Server) (token : String) : Server :=
  match token.toList with
  | '+' :: nick => if nick = [] then s else s.watchToken id (String.ofList nick)
  | '-' :: nick => if nick = [] then s else s.unwatchToken id (String.ofList nick)
  | c :: _ =>
    if c = 'C' ∨ c = 'c' then s.cmdMonitor id ["C"]
    else if c = 'L' ∨ c = 'l' then
      ((s.entry id).monitor.foldl (listToken id) s).numeric id rplEndOfWatchList ["L"] (some "End of WATCH list")
    else if c = 'S' ∨ c = 's' then s.cmdMonitor id ["S"]
    else s
  | [] => s

/-- `WATCH`. -/
def cmdWatch (s : Server) (id : UInt64) (params : List String) : Server :=
  if params.isEmpty then s.cmdMonitor id ["L"] else params.foldl (watchWord id) s

end Server

end Ferrixd
