import Ferrixd.State.Session

/-! # MONITOR

A client watches nicks, whoever holds them on the network.  It is told at once who is there, and from
then on who comes and goes. -/

namespace Ferrixd

def rplMonList : Nat := 732
def rplEndOfMonList : Nat := 733
def errNeedMoreParams : Nat := 461
def errMonListFull : Nat := 734

/-- The nicks that a client may watch. -/
def monitorLimit : Nat := 100

/-- The mask of whoever holds a nick, here or on another server. -/
def Tables.presenceMask (t : Tables) (folded : String) : Option String :=
  match t.findClient folded with
  | some id => some (t.entry id).hostmask
  | none => (t.findRemoteUser folded).map (·.hostmask)

/-- The targets of a list that are not empty. -/
def monitorTargets (list : String) : List String :=
  (list.splitOn ",").filter fun target => target ≠ ""

/-- A nick that was asked about: its folded form, the form shown, and the mask of its holder. -/
structure Asked where
  folded : String
  shown : String
  mask : Option String

namespace Server

/-- Answer who of the nicks asked about is there, and who is not. -/
def answerPresence (s : Server) (id : UInt64) (asked : List Asked) : Server :=
  let online := asked.filter fun one => one.mask.isSome
  let offline := asked.filter fun one => one.mask.isNone
  let s := if online.isEmpty then s
    else s.sendPresence id rplMonOnline (online.map (·.folded)) (",".intercalate (online.filterMap (·.mask)))
  if offline.isEmpty then s
  else s.sendPresence id rplMonOffline (offline.map (·.folded)) (",".intercalate (offline.map (·.shown)))

/-- Watch a nick, and look who holds it. -/
def watchNick (s : Server) (id : UInt64) (target : String) : Server × Asked :=
  let folded := s.fold target
  let s := s.modifyEntry id fun entry => { entry with monitor := entry.monitor.insert folded }
  let s := s.monitorWatch folded id
  (s, ⟨folded, target, s.presenceMask folded⟩)

/-- Watch nicks one after the other, until the list is full. -/
def watchAll (id : UInt64) : List String → Server → List Asked → Server × List Asked
  | [], s, asked => (s, asked)
  | target :: targets, s, asked =>
    let monitor := (s.entry id).monitor
    if s.fold target ∉ monitor ∧ monitorLimit ≤ monitor.length then
      (s.numeric id errMonListFull [toString monitorLimit, target] (some "Monitor list is full"), asked)
    else
      let (s, one) := s.watchNick id target
      watchAll id targets s (asked ++ [one])

def unwatchNick (id : UInt64) (s : Server) (folded : String) : Server :=
  (s.modifyEntry id fun entry => { entry with monitor := entry.monitor.filter fun name => name != folded }).monitorUnwatch
    folded id

/-- The list of watched nicks, in chunks of ten. -/
def listWatched (s : Server) (id : UInt64) (watched : List String) : Server :=
  let s := (watched.toChunks 10).foldl (fun s chunk => s.numeric id rplMonList [] (some (",".intercalate chunk))) s
  s.numeric id rplEndOfMonList [] (some "End of MONITOR list")

/-- `MONITOR`: watch nicks, stop watching some or all of them, list them, or ask about all of them. -/
def cmdMonitor (s : Server) (id : UInt64) (params : List String) : Server :=
  match params with
  | [] => s.numeric id errNeedMoreParams ["MONITOR"] (some "Not enough parameters")
  | sub :: rest =>
    let watched := (s.entry id).monitor
    if sub = "+" then
      match rest with
      | [] => s.numeric id errNeedMoreParams ["MONITOR"] (some "Not enough parameters")
      | list :: _ =>
        let (s, asked) := watchAll id (monitorTargets list) s []
        s.answerPresence id asked
    -- a missing list is an error for "+" only
    else if sub = "-" then
      match rest with
      | [] => s
      | list :: _ => ((monitorTargets list).map s.fold).foldl (unwatchNick id) s
    else if sub = "C" ∨ sub = "c" then watched.foldl (unwatchNick id) s
    else if sub = "L" ∨ sub = "l" then s.listWatched id watched
    else if sub = "S" ∨ sub = "s" then
      s.answerPresence id (watched.map fun folded => ⟨folded, folded, s.presenceMask folded⟩)
    else s

end Server

end Ferrixd
