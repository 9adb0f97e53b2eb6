import Ferrixd.Command.Capabilities
import Ferrixd.Command.Identity
import Ferrixd.Command.Listing
import Ferrixd.Invariant.Commands

/-! # The handshake

A connection negotiates capabilities, gives a password, a nick and a user, and is registered as soon as nothing is
missing. -/

namespace Ferrixd

def errInvalidCapCmd : Nat := 410

/-! ## Capability replies -/

inductive CapReply where
  | ls
  | list
  | ack
  | nak
  deriving DecidableEq

def CapReply.word : CapReply → String
  | ls => "LS"
  | list => "LIST"
  | ack => "ACK"
  | nak => "NAK"

structure CapLine where
  reply : CapReply
  text : String

/-- What a client takes to be enabled once it has read a reply. -/
def CapSet.heard (view : CapSet) (line : CapLine) : CapSet :=
  match line.reply with
  | .ack => ((parseReq line.text).map view.change).getD view
  | .list => ((parseReq line.text).map (CapSet.change [])).getD view
  | .ls | .nak => view

/-- Whether `NICK` claims a nick that the client does not have, up to case. -/
def Server.claims (s : Server) (id : UInt64) (nick : String) : Bool :=
  let current := (s.entry id).nick
  let currentFolded := if current = "*" then "" else s.fold current
  isValidNick nick && !(currentFolded != "" && s.fold nick == currentFolded) && (s.claimNick (s.fold nick) id).2

/-! ## Sessions -/

/-- The server, and what a connection keeps beside its entry there. -/
structure Session where
  server : Server
  /-- The password that the server asks of its clients. -/
  clientPassword : Option String := none
  registered : Bool := false
  hasUser : Bool := false
  capNegotiating : Bool := false
  pass : Option String := none
  quit : Option String := none
  /-- The `CAP` replies to the client, in their order. -/
  capLines : List CapLine := []

namespace Session

variable (s : Session) (id : UInt64) (cloak : String) (params : List String)

def clientPasswordOk : Bool :=
  match s.clientPassword with
  | none => true
  | some required => s.pass == some required

def hasNick : Bool :=
  (s.server.entry id).nick != "*"

def nickOrStar : String :=
  if (s.server.entry id).nick = "" then "*" else (s.server.entry id).nick

/-- Admit the client, unless the password is wrong or it is banned. -/
def completeRegistration : Session :=
  if !s.clientPasswordOk then
    { s with
      server := s.server.numeric id errPasswdMismatch [] (some "Password incorrect")
      quit := some "Bad password" }
  else match s.server.matchesKline (s.server.entry id).realHostmask with
    | some reason => { s with quit := some ("K-Lined: " ++ reason) }
    | none => { s with server := s.server.completeRegistration id cloak, registered := true }

/-- Whether something is left to do before the registration. -/
def missing : Bool :=
  s.capNegotiating || !s.hasUser || !s.hasNick id

def maybeRegister : Session :=
  if s.registered || s.missing id then s else s.completeRegistration id cloak

/-! ## Commands -/

def sendCap (reply : CapReply) (text : String) : Session :=
  { s with
    server := s.server.send id (Line.server s.server.info.name |>.command "CAP" |>.param (s.nickOrStar id)
      |>.param reply.word |>.trailing text |>.build)
    capLines := s.capLines ++ [⟨reply, text⟩] }

/-- `CAP REQ`: all of the changes, or none. -/
def capReq (requested : String) : Session :=
  match parseReq requested with
  | some changes =>
    let server := s.server.modifyEntry id fun entry => { entry with caps := entry.caps.change changes }
    { s with server }.sendCap id .ack requested
  | none => s.sendCap id .nak requested

/-- `CAP`. -/
def cmdCap (stsToken : Option String) : Session :=
  match params with
  | [] => s
  | sub :: rest =>
    if asciiUpper sub = "LS" then { s with capNegotiating := true }.sendCap id .ls (lsLine stsToken)
    else if asciiUpper sub = "LIST" then s.sendCap id .list (s.server.entry id).caps.listLine
    else if asciiUpper sub = "REQ" then { s with capNegotiating := true }.capReq id (rest.headD "")
    else if asciiUpper sub = "END" then { s with capNegotiating := false }.maybeRegister id cloak
    else { s with
      server := s.server.numeric id errInvalidCapCmd [asciiUpper sub] (some "Invalid CAP subcommand") }

/-- `NICK`. -/
def cmdNick : Session :=
  match params with
  | [] => { s with server := s.server.numeric id errNoNicknameGiven [] (some "No nickname given") }
  | nick :: _ =>
    let later := { s with server := s.server.cmdNick id nick }
    if s.server.claims id nick && !s.registered then later.maybeRegister id cloak else later

/-- `USER`. -/
def cmdUser : Session :=
  let later := { s with server := s.server.cmdUser id params }
  if s.registered || decide (params.length < 4) then later
  else { later with hasUser := true }.maybeRegister id cloak

/-- `PASS`. -/
def cmdPass : Session :=
  if s.registered then
    { s with server := s.server.numeric id errAlreadyRegistered [] (some "You may not reregister") }
  else match params with
    | [] => { s with server := s.server.needMoreParams id "PASS" }
    | password :: _ => { s with pass := some password }

end Session

/-- A command of the handshake, or anything that happens to the server meanwhile. -/
inductive SessionEvent where
  | cap (params : List String) (stsToken : Option String) (cloak : String)
  | nick (params : List String) (cloak : String)
  | user (params : List String) (cloak : String)
  | pass (params : List String)
  | meanwhile (server : Server) (clientPassword : Option String)

namespace Session

def perform (s : Session) (id : UInt64) : SessionEvent → Session
  | .cap params stsToken cloak => s.cmdCap id cloak params stsToken
  | .nick params cloak => s.cmdNick id cloak params
  | .user params cloak => s.cmdUser id cloak params
  | .pass params => s.cmdPass id params
  | .meanwhile server clientPassword => { s with server, clientPassword }

/-- Only its own session writes the nick, the registration and the capabilities of a client. -/
def Admits (s : Session) (id : UInt64) : SessionEvent → Prop
  | .meanwhile server _ =>
    (server.entry id).nick = (s.server.entry id).nick ∧
      (server.entry id).registered = (s.server.entry id).registered ∧
      (server.entry id).caps = (s.server.entry id).caps
  | _ => True

/-- What a session comes to, as long as it is not told to quit. -/
inductive Run (id : UInt64) (first : Session) : Session → Prop where
  | start : Run id first first
  | step {s : Session} {event : SessionEvent} (run : Run id first s) (live : s.quit = none)
      (admits : s.Admits id event) : Run id first (s.perform id event)

/-- What the client takes to be enabled. -/
def view (s : Session) : CapSet :=
  s.capLines.foldl CapSet.heard []

end Session

/-! ## What the server's part does to the client -/

namespace Server

variable (s : Server) (id : UInt64)

theorem modifyEntry_entry (change : ClientEntry → ClientEntry) :
    (s.modifyEntry id change).entry id = change (s.entry id) := by
  rw [Tables.entry_insert s.toTables (s.modifyEntry id change).toTables rfl, if_pos rfl]

/-- `NICK` changes the nick at most, to a proper one that it claims or that is the client's up to case. -/
theorem cmdNick_entry (nick : String) : (s.cmdNick id nick).entry id = s.entry id ∨
    nick ≠ "*" ∧ (s.claims id nick = true ∨ (s.entry id).nick ≠ "*") ∧
      (s.cmdNick id nick).entry id = { s.entry id with nick } := by
  rw [cmdNick, claims]
  cases valid : isValidNick nick with
  | false => exact .inl rfl
  | true =>
    have proper := (isValidNick_proper valid).1
    rw [if_neg (by simp)]
    extract_lets folded current currentFolded registered
    split
    · -- its own nick
      rename_i own
      have named : current ≠ "*" := fun unset => own.1 (if_pos unset)
      split
      · exact .inl rfl
      · refine .inr ⟨proper, .inr named, ?_⟩
        have recased := s.modifyEntry_entry id fun entry => { entry with nick }
        split
        · rw [propagateNickChange_toTables, broadcastNickChange_toTables]
          exact recased
        · exact recased
    · rename_i another
      have untouched : (s.claimNick folded id).1.entry id = s.entry id := by
        obtain refused | ⟨-, own⟩ | ⟨-, claimed⟩ := s.claimNick_cases folded id
        · rw [refused]
        · rw [own]
        · rw [claimed]
          rfl
      cases attempt : s.claimNick folded id with
      | mk later won =>
        rw [attempt] at untouched
        cases won with
        | false => exact .inl untouched
        | true =>
          have claimed : (true && !(currentFolded != "" && folded == currentFolded) && (later, true).2) = true := by
            simpa [imp_iff_not_or] using another
          refine .inr ⟨proper, .inl claimed, ?_⟩
          have kept : (if currentFolded = "" then later else later.releaseNick currentFolded).entry id =
              s.entry id := by
            rw [← untouched]
            split <;> rfl
          dsimp only
          generalize (if currentFolded = "" then later else later.releaseNick currentFolded) = left at kept ⊢
          have renamed := left.modifyEntry_entry id fun entry => { entry with nick }
          rw [kept] at renamed
          split
          · simp only [monitorOnline_toTables, monitorOffline_toTables, propagateNickChange_toTables,
              broadcastNickChange_toTables, recordWhowas_toTables]
            exact renamed
          · exact renamed

theorem cmdUser_entry (params : List String) : ∃ user realname,
    (s.cmdUser id params).entry id = { s.entry id with user, realname } := by
  fun_cases cmdUser s id params with
  | case1 => exact ⟨_, _, rfl⟩
  | case2 => exact ⟨_, _, s.modifyEntry_entry id _⟩
  | case3 => exact ⟨_, _, rfl⟩

theorem completeRegistration_entry (admitted : s.matchesKline (s.entry id).realHostmask = none) (cloak : String) :
    (s.completeRegistration id cloak).entry id = { s.entry id with host := cloak, registered := true } := by
  rw [completeRegistration, admitted]
  dsimp only
  rw [monitorOnline_toTables, introduceLocal_toTables]
  exact s.modifyEntry_entry id _

end Server

/-! ## Runs -/

namespace Session

/-- What holds between any two steps of a command. -/
structure Coherent (s : Session) (id : UInt64) : Prop where
  agree : (s.server.entry id).registered = s.registered
  complete : s.registered = true → s.hasUser = true ∧ s.hasNick id = true
  seen : ∀ cap, s.view.has cap = (s.server.entry id).caps.has cap

/-- What holds between commands: as long as a client waits, something is missing. -/
structure Sound (s : Session) (id : UInt64) : Prop extends Coherent s id where
  waiting : s.registered = false → s.quit = none → s.missing id = true

variable {s s' : Session} {id : UInt64}

/-- A command that sends no `CAP` reply keeps the entry but for its nick. -/
theorem Coherent.entry (coherent : s.Coherent id) (registered : s'.registered = s.registered)
    (hasUser : s.hasUser = true → s'.hasUser = true) (hasNick : s.hasNick id = true → s'.hasNick id = true)
    (agree : (s'.server.entry id).registered = (s.server.entry id).registered)
    (caps : (s'.server.entry id).caps = (s.server.entry id).caps) (capLines : s'.capLines = s.capLines) :
    s'.Coherent id where
  agree := by rw [agree, coherent.agree, registered]
  complete isRegistered := by
    obtain ⟨user, nick⟩ := coherent.complete (registered ▸ isRegistered)
    exact ⟨hasUser user, hasNick nick⟩
  seen cap := by
    rw [view, capLines, caps]
    exact coherent.seen cap

/-- A reply that the client reads as the change that was made. -/
theorem Coherent.sendCap (coherent : s.Coherent id) {reply : CapReply} {text : String}
    {server : Server} (identity : (server.entry id).nick = (s.server.entry id).nick ∧
      (server.entry id).registered = (s.server.entry id).registered)
    (heard : ∀ cap, (s.view.heard ⟨reply, text⟩).has cap = (server.entry id).caps.has cap) :
    ({ s with server }.sendCap id reply text).Coherent id where
  agree := identity.2.trans coherent.agree
  complete isRegistered := by
    obtain ⟨user, nick⟩ := coherent.complete isRegistered
    refine ⟨user, ?_⟩
    rw [Session.hasNick] at nick ⊢
    exact identity.1 ▸ nick
  seen cap := by
    rw [view, Session.sendCap, List.foldl_concat]
    exact heard cap

/-- A command that changes none of the conditions leaves the client waiting. -/
theorem Sound.kept (sound : s.Sound id) (hasNick : s'.hasNick id = s.hasNick id)
    (agree : (s'.server.entry id).registered = (s.server.entry id).registered)
    (caps : (s'.server.entry id).caps = (s.server.entry id).caps) (registered : s'.registered = s.registered)
    (quit : s'.quit = s.quit) (hasUser : s'.hasUser = s.hasUser) (capNegotiating : s'.capNegotiating = s.capNegotiating)
    (capLines : s'.capLines = s.capLines) : s'.Sound id := by
  refine ⟨sound.toCoherent.entry registered (fun user => hasUser.trans user) (fun nick => hasNick.trans nick)
    agree caps capLines, fun unregistered live => ?_⟩
  rw [missing, capNegotiating, hasUser, hasNick]
  exact sound.waiting (registered ▸ unregistered) (quit ▸ live)

/-- Whoever is admitted has given the password and is not banned. -/
theorem completeRegistration_cases (s : Session) (id : UInt64) (cloak : String) :
    (∃ server reason, s.completeRegistration id cloak = { s with server, quit := some reason } ∧
      server.entry id = s.server.entry id) ∨
    (s.clientPasswordOk = true ∧ s.server.matchesKline (s.server.entry id).realHostmask = none ∧
      s.completeRegistration id cloak =
        { s with server := s.server.completeRegistration id cloak, registered := true }) := by
  rw [completeRegistration]
  cases accepted : s.clientPasswordOk with
  | false => exact .inl ⟨_, _, rfl, rfl⟩
  | true =>
    rw [if_neg (by simp)]
    cases banned : s.server.matchesKline (s.server.entry id).realHostmask with
    | some reason => exact .inl ⟨_, _, rfl, rfl⟩
    | none => exact .inr ⟨rfl, rfl, rfl⟩

/-- The end of a command that may have been the last of the handshake. -/
theorem Coherent.maybeRegister (coherent : s.Coherent id) (cloak : String) : (s.maybeRegister id cloak).Sound id := by
  rw [Session.maybeRegister]
  cases registered : s.registered with
  | true => exact ⟨coherent, fun unregistered => absurd (registered.symm.trans unregistered) (by decide)⟩
  | false =>
    cases missing : s.missing id with
    | true => exact ⟨coherent, fun _ _ => missing⟩
    | false =>
      rw [if_neg (by decide)]
      obtain ⟨server, reason, quit, kept⟩ | ⟨-, admitted, completed⟩ := s.completeRegistration_cases id cloak
      · rw [quit]
        refine ⟨coherent.entry rfl (fun user => user) (fun nick => ?_) ?_ ?_ rfl,
          fun _ live => absurd live (Option.some_ne_none _)⟩
        · rw [hasNick] at nick ⊢
          exact kept ▸ nick
        · exact congrArg ClientEntry.registered kept
        · exact congrArg ClientEntry.caps kept
      · rw [completed]
        have entry := s.server.completeRegistration_entry id admitted cloak
        rw [Session.missing, Bool.or_eq_false_iff, Bool.or_eq_false_iff] at missing
        refine ⟨⟨congrArg ClientEntry.registered entry, fun _ => ⟨by simpa using missing.1.2, ?_⟩, fun cap => ?_⟩,
          fun unregistered => absurd unregistered.symm Bool.false_ne_true⟩
        · rw [hasNick, entry]
          simpa [hasNick] using missing.2
        · rw [entry]
          exact coherent.seen cap

/-- Disabling and enabling go on from the same set on both sides. -/
theorem Coherent.heard_ack (coherent : s.Coherent id) {requested : String} {changes : List (Cap × Bool)}
    (parsed : parseReq requested = some changes) (cap : Cap) :
    (s.view.heard ⟨.ack, requested⟩).has cap = ((s.server.entry id).caps.change changes).has cap := by
  simp only [CapSet.heard, parsed, Option.map_some, Option.getD_some]
  exact CapSet.has_change coherent.seen changes cap

theorem heard_list (view caps : CapSet) (cap : Cap) : (view.heard ⟨.list, caps.listLine⟩).has cap = caps.has cap := by
  simp only [CapSet.heard, parseReq_listLine, Option.map_some, Option.getD_some, CapSet.has_change_enable]
  simp [Cap.mem_all, CapSet.has]

theorem Coherent.capReq (coherent : s.Coherent id) (requested : String) : (s.capReq id requested).Coherent id := by
  rw [Session.capReq]
  cases parsed : parseReq requested with
  | none => exact coherent.sendCap ⟨rfl, rfl⟩ coherent.seen
  | some changes =>
    have changed := s.server.modifyEntry_entry id fun entry => { entry with caps := entry.caps.change changes }
    refine coherent.sendCap ⟨by rw [changed], by rw [changed]⟩ fun cap => ?_
    rw [coherent.heard_ack parsed, changed]

theorem capReq_capNegotiating (s : Session) (id : UInt64) (requested : String) :
    (s.capReq id requested).capNegotiating = s.capNegotiating := by
  rw [capReq]
  split <;> rfl

theorem missing_of_negotiating (negotiating : s.capNegotiating = true) : s.missing id = true := by
  rw [missing, negotiating, Bool.true_or, Bool.true_or]

theorem Sound.cmdCap (sound : s.Sound id) (cloak : String) (params : List String) (stsToken : Option String) :
    (s.cmdCap id cloak params stsToken).Sound id := by
  cases params with
  | nil => exact sound
  | cons sub rest =>
    have negotiating : { s with capNegotiating := true }.Coherent id := ⟨sound.agree, sound.complete, sound.seen⟩
    rw [Session.cmdCap]
    split
    · exact ⟨negotiating.sendCap ⟨rfl, rfl⟩ sound.seen, fun _ _ => missing_of_negotiating rfl⟩
    split
    · exact ⟨sound.toCoherent.sendCap ⟨rfl, rfl⟩ (heard_list _ _), sound.waiting⟩
    split
    · exact ⟨negotiating.capReq _, fun _ _ => missing_of_negotiating (capReq_capNegotiating _ _ _)⟩
    split
    · have settled : { s with capNegotiating := false }.Coherent id := ⟨sound.agree, sound.complete, sound.seen⟩
      exact settled.maybeRegister cloak
    · exact sound.kept rfl rfl rfl rfl rfl rfl rfl rfl

theorem Sound.cmdNick (sound : s.Sound id) (cloak : String) (params : List String) :
    (s.cmdNick id cloak params).Sound id := by
  cases params with
  | nil => exact sound.kept rfl rfl rfl rfl rfl rfl rfl rfl
  | cons nick rest =>
    rw [Session.cmdNick]
    obtain same | ⟨proper, reason, renamed⟩ := s.server.cmdNick_entry id nick
    · have kept : { s with server := s.server.cmdNick id nick }.Sound id :=
        sound.kept (by rw [hasNick, hasNick, same]) (by rw [same]) (by rw [same]) rfl rfl rfl rfl rfl
      split
      · exact kept.toCoherent.maybeRegister cloak
      · exact kept
    · have nicked : { s with server := s.server.cmdNick id nick }.hasNick id = true := by
        rw [hasNick, renamed]
        simpa using proper
      split
      · have coherent : { s with server := s.server.cmdNick id nick }.Coherent id :=
          sound.toCoherent.entry rfl (fun user => user) (fun _ => nicked) (by rw [renamed]) (by rw [renamed]) rfl
        exact coherent.maybeRegister cloak
      · rename_i unclaimed
        rcases reason with claims | named
        · -- a claim was made by a registered client
          have registered : s.registered = true := by
            rw [claims, Bool.true_and, Bool.not_eq_true, Bool.not_eq_false'] at unclaimed
            exact unclaimed
          refine sound.kept ?_ (by rw [renamed]) (by rw [renamed]) rfl rfl rfl rfl rfl
          exact nicked.trans (sound.complete registered).2.symm
        · have before : s.hasNick id = true := by simpa [hasNick] using named
          exact sound.kept (nicked.trans before.symm) (by rw [renamed]) (by rw [renamed]) rfl rfl rfl rfl rfl

theorem Sound.cmdUser (sound : s.Sound id) (cloak : String) (params : List String) :
    (s.cmdUser id cloak params).Sound id := by
  obtain ⟨user, realname, entry⟩ := s.server.cmdUser_entry id params
  have kept : { s with server := s.server.cmdUser id params }.Sound id :=
    sound.kept (by rw [hasNick, hasNick, entry]) (by rw [entry]) (by rw [entry]) rfl rfl rfl rfl rfl
  rw [Session.cmdUser]
  dsimp only
  split
  · exact kept
  · have coherent : { s with server := s.server.cmdUser id params, hasUser := true }.Coherent id :=
      kept.toCoherent.entry rfl (fun _ => rfl) (fun nicked => nicked) rfl rfl rfl
    exact coherent.maybeRegister cloak

theorem Sound.cmdPass (sound : s.Sound id) (params : List String) : (s.cmdPass id params).Sound id := by
  unfold Session.cmdPass
  split
  · exact sound.kept rfl rfl rfl rfl rfl rfl rfl rfl
  · cases params with
    | nil => exact sound.kept rfl rfl rfl rfl rfl rfl rfl rfl
    | cons password rest => exact sound.kept rfl rfl rfl rfl rfl rfl rfl rfl

theorem Sound.perform (sound : s.Sound id) {event : SessionEvent} (admits : s.Admits id event) :
    (s.perform id event).Sound id := by
  cases event with
  | cap params stsToken cloak => exact sound.cmdCap cloak params stsToken
  | nick params cloak => exact sound.cmdNick cloak params
  | user params cloak => exact sound.cmdUser cloak params
  | pass params => exact sound.cmdPass params
  | meanwhile server clientPassword =>
    obtain ⟨nick, registered, caps⟩ := admits
    have kept : { s with server, clientPassword }.hasNick id = s.hasNick id := by rw [hasNick, hasNick, nick]
    exact sound.kept kept registered caps rfl rfl rfl rfl rfl

/-- A new connection, at a server that may ask for a password. -/
def opened (server : Server) (host : String) (clientPassword : Option String) : Session :=
  { server := server.connect host, clientPassword }

theorem opened_sound (server : Server) (host : String) (clientPassword : Option String) :
    (opened server host clientPassword).Sound server.nextId := by
  have entry : (server.connect host).entry server.nextId = { host, realIp := host } := by
    rw [Tables.entry_insert server.toTables (server.connect host).toTables rfl, if_pos rfl]
  refine ⟨⟨?_, fun registered => absurd registered Bool.false_ne_true, fun cap => ?_⟩, fun _ _ => rfl⟩
  · exact congrArg ClientEntry.registered entry
  · exact congrArg (fun entry => entry.caps.has cap) entry.symm

theorem Run.sound {first : Session} (opened : first.Sound id) (run : Run id first s) : s.Sound id := by
  induction run with
  | start => exact opened
  | step _ _ admits ih => exact ih.perform admits

/-! ### Admission -/

/-- In every run the client that reads its `CAP` replies knows which capabilities are enabled. -/
theorem run_capabilities {server : Server} {host : String} {clientPassword : Option String}
    (run : Run server.nextId (opened server host clientPassword) s) (cap : Cap) :
    s.view.has cap = (s.server.entry server.nextId).caps.has cap :=
  (run.sound (opened_sound server host clientPassword)).seen cap

/-- Alice has given everything, but still negotiates. -/
def aliceEvents : List SessionEvent := [
  .cap ["LS", "302"] none "cloak.example",
  .nick ["Alice"] "cloak.example",
  .user ["alice", "0", "*", "Alice Liddell"] "cloak.example",
  .pass ["tea"],
  .cap ["REQ", "sasl server-time -sasl"] none "cloak.example"]

def aliceAsks : Session :=
  aliceEvents.foldl (fun s event => s.perform 1 event) (opened Server.alpha "host.example" (some "tea"))

theorem aliceAsks_run : Run 1 (opened Server.alpha "host.example" (some "tea")) aliceAsks := by
  dsimp only [aliceAsks, aliceEvents, List.foldl_cons, List.foldl_nil]
  refine .step (.step (.step (.step (.step .start ?_ trivial) ?_ trivial) ?_ trivial) ?_ trivial) ?_ trivial
  all_goals decide +kernel

theorem run_capabilities_alice :
    aliceAsks.view.has .serverTime = (aliceAsks.server.entry 1).caps.has .serverTime ∧
      aliceAsks.view.has .serverTime = true :=
  ⟨@run_capabilities aliceAsks Server.alpha "host.example" (some "tea") aliceAsks_run .serverTime, by decide +kernel⟩

end Session

end Ferrixd
