import Ferrixd.Invariant.Commands

/-! # The nicks that clients hold

A nick is checked before it is taken, and nothing else puts one into the registry. -/

namespace Ferrixd

/-- Every nick held after a step was held before it, or is a valid one. -/
structure KeepsNicks (t t' : Tables) : Prop where
  info : t'.info = t.info
  nicks : ∀ folded ∈ t'.clients, folded ∈ t.clients ∨ ∃ nick, isValidNick nick = true ∧ folded = t.fold nick

namespace KeepsNicks

variable {t t' : Tables} {s : Server}

theorem of_clients (info : t'.info = t.info) (clients : t'.clients = t.clients) : KeepsNicks t t' :=
  ⟨info, fun _ held => .inl (clients ▸ held)⟩

theorem of_eq (same : t' = t) : KeepsNicks t t' :=
  of_clients (by rw [same]) (by rw [same])

theorem undisturbed (same : Undisturbed t t') : KeepsNicks t t' :=
  of_clients same.info same.clients.clients

theorem trans {first second third : Tables} (left : KeepsNicks first second) (right : KeepsNicks second third) :
    KeepsNicks first third := by
  refine ⟨right.info.trans left.info, fun folded held => ?_⟩
  rcases right.nicks folded held with before | ⟨nick, valid, here⟩
  · exact left.nicks folded before
  · refine .inr ⟨nick, valid, here.trans ?_⟩
    rw [Tables.fold, Tables.fold, left.info]

/-- A nick is given up. -/
theorem released (info : t'.info = t.info) {folded : String} (clients : t'.clients = t.clients.erase folded) :
    KeepsNicks t t' := by
  refine ⟨info, fun other held => .inl ?_⟩
  rw [clients, AList.mem_erase] at held
  exact held.2

/-- A valid nick is taken. -/
theorem taken (info : t'.info = t.info) {nick : String} (valid : isValidNick nick = true) {id : UInt64}
    (clients : t'.clients = t.clients.insert (t.fold nick) id) : KeepsNicks t t' := by
  refine ⟨info, fun other held => ?_⟩
  rw [clients, AList.mem_insert] at held
  rcases held with new | before
  · exact .inr ⟨nick, valid, new⟩
  · exact .inl before

theorem cmdNick (id : UInt64) (nick : String) : KeepsNicks s.toTables (s.cmdNick id nick).toTables := by
  rw [Server.cmdNick]
  cases valid : isValidNick nick with
  | false => exact of_eq rfl
  | true =>
    rw [if_neg (by simp)]
    extract_lets folded current currentFolded registered
    split
    · -- the nick stays the same, or changes its case
      split
      · exact of_eq rfl
      · have recased : KeepsNicks s.toTables (s.setNick id nick).toTables := of_clients rfl rfl
        split
        · refine recased.trans (of_eq ?_)
          rw [Server.propagateNickChange_toTables, Server.broadcastNickChange_toTables]
        · exact recased
    · have claimed : KeepsNicks s.toTables (s.claimNick folded id).1.toTables := by
        obtain refused | ⟨-, own⟩ | ⟨-, free⟩ := Server.claimNick_cases s folded id
        · exact of_eq (by rw [refused])
        · exact of_eq (by rw [own])
        · rw [free]
          exact taken rfl valid rfl
      cases attempt : s.claimNick folded id with
      | mk later won =>
        rw [attempt] at claimed
        cases won with
        | false => exact claimed.trans (of_eq rfl)
        | true =>
          have renamed : KeepsNicks later.toTables
              ((if currentFolded = "" then later else later.releaseNick currentFolded).setNick id nick).toTables := by
            split
            · exact of_clients rfl rfl
            · exact released rfl rfl
          refine claimed.trans (renamed.trans ?_)
          dsimp only
          generalize (if currentFolded = "" then later else later.releaseNick currentFolded) = left
          split
          · refine of_eq ?_
            simp only [Server.monitorOnline_toTables, Server.monitorOffline_toTables,
              Server.propagateNickChange_toTables, Server.broadcastNickChange_toTables, Server.recordWhowas_toTables]
          · exact of_eq rfl

theorem closeConnection (id : UInt64) (reason : String) :
    KeepsNicks s.toTables (s.closeConnection id reason).toTables := by
  have left : ∀ s : Server, KeepsNicks s.toTables (s.disconnect id reason).toTables := by
    intro s
    rw [Server.disconnect_toTables]
    refine ⟨rfl, fun folded held => .inl ?_⟩
    dsimp only at held
    split at held
    · rw [AList.mem_erase] at held
      exact held.2
    · exact held
  rw [Server.closeConnection]
  split
  · exact (of_eq (Server.withdrawLocal_toTables s id reason)).trans (left _)
  · exact left s

theorem completeRegistration (id : UInt64) (cloak : String) :
    KeepsNicks s.toTables (s.completeRegistration id cloak).toTables := by
  rw [Server.completeRegistration]
  cases s.matchesKline (s.entry id).realHostmask with
  | some reason => exact closeConnection id _
  | none =>
    refine of_clients ?_ ?_ <;> rw [Server.monitorOnline_toTables, Server.introduceLocal_toTables] <;> rfl

theorem joinOne (id : UInt64) (name : String) (key : Option String) :
    KeepsNicks s.toTables (s.joinOne id name key).toTables := by
  rw [Server.joinOne]
  split
  · exact of_eq rfl
  dsimp only
  split
  · exact of_eq rfl
  split
  · exact of_eq rfl
  have begun := Undisturbed.beginJoin s name
  generalize s.beginJoin (s.fold name) name = joining at begun
  obtain ⟨later, created⟩ := joining
  dsimp only at begun ⊢
  refine (undisturbed begun).trans ?_
  cases later.findChannel (s.fold name) with
  | none => exact of_eq rfl
  | some channel =>
    dsimp only
    split
    · exact undisturbed (.endJoin (later.numeric id _ _ _) _)
    · refine trans ?_ (undisturbed (.endJoin _ _))
      split <;> rw [Server.enterChannel_toTables] <;> exact of_clients rfl rfl

theorem renamedChannel {s' : Server} {oldFolded newName : String}
    (renamed : s.renameChannel oldFolded newName = .ok s') : KeepsNicks s.toTables s'.toTables :=
  of_clients (Server.renameChannel_ok renamed).1.2.2 (SameClients.renamedChannel renamed).clients

theorem remoteKick (channelName source targetUid reason : String) :
    KeepsNicks s.toTables (s.remoteKick channelName source targetUid reason).toTables := by
  obtain same | ⟨id, -, kicked⟩ | ⟨-, -, kicked⟩ := Server.remoteKick_toTables s channelName source targetUid reason
  · exact of_eq same
  · rw [kicked]
    exact of_clients rfl rfl
  · rw [kicked]
    exact undisturbed (.parted _ _ _)

theorem remoteRename (source old new reason : String) :
    KeepsNicks s.toTables (s.remoteRename source old new reason).toTables := by
  obtain same | ⟨moved, renamed, same⟩ := Server.remoteRename_toTables s source old new reason
  · exact of_eq same
  · exact (renamedChannel renamed).trans (of_eq same)

theorem receive (peerSid : String) (message : LinkMessage) :
    KeepsNicks s.toTables (s.receive peerSid message).toTables := by
  have applied : ∀ (authorized : Bool) (change : Server → Server),
      s.handle peerSid message = s.applyIf authorized peerSid message change →
      KeepsNicks s.toTables (change s).toTables → KeepsNicks s.toTables (s.receive peerSid message).toTables := by
    intro authorized change handled kept
    rw [Server.receive_applyIf handled]
    cases authorized with
    | true => exact kept
    | false => exact of_eq rfl
  by_cases kick : ∃ channel source target reason, message = .skick channel source target reason
  · obtain ⟨channel, source, target, reason, rfl⟩ := kick
    exact applied _ (fun s => s.remoteKick channel source target reason) rfl (remoteKick _ _ _ _)
  by_cases rename : ∃ source old new reason, message = .srename source old new reason
  · obtain ⟨source, old, new, reason, rfl⟩ := rename
    exact applied _ (fun s => s.remoteRename source old new reason) rfl (remoteRename _ _ _ _)
  refine undisturbed (.receive ?_ ?_)
  · exact fun channel source target reason same => kick ⟨channel, source, target, reason, same⟩
  · exact fun source old new reason same => rename ⟨source, old, new, reason, same⟩

end KeepsNicks

namespace SessionCall

/-- What clients and peers make a server do keeps its nicks valid. -/
theorem perform_keepsNicks {node node' : Node} {call : SessionCall} (performed : call.Performs node node') :
    KeepsNicks node.server.toTables node'.server.toTables := by
  cases call with
  | connect host =>
    obtain ⟨-, rfl⟩ := performed
    exact .of_clients rfl rfl
  | cmdNick id nick =>
    obtain ⟨-, rfl⟩ := performed
    exact .cmdNick id nick
  | cmdUser id params =>
    obtain ⟨-, rfl⟩ := performed
    obtain same | ⟨user, realname, said⟩ := node.server.cmdUser_cases id params
    · exact .of_eq same
    · exact .of_clients (by rw [said]) (by rw [said])
  | completeRegistration id cloak =>
    obtain ⟨-, -, rfl⟩ := performed
    exact .completeRegistration id cloak
  | joinOne id name key =>
    obtain ⟨-, -, rfl⟩ := performed
    exact .joinOne id name key
  | partOne id name reason =>
    cases performed
    obtain same | parted := node.server.partOne_cases id name reason
    · exact .of_eq same
    · rw [parted]
      exact .of_clients rfl rfl
  | kickOne id chan targetNick reason =>
    cases performed
    obtain same | ⟨other, -, kicked⟩ | ⟨user, -, kicked⟩ := node.server.kickOne_cases id chan targetNick reason
    · exact .of_eq same
    · rw [kicked]
      exact .of_clients rfl rfl
    · rw [kicked]
      exact .undisturbed (.parted _ _ _)
  | cmdRename id old newName reason =>
    cases performed
    obtain same | ⟨-, -, moved, renamed, same⟩ := node.server.cmdRename_cases id old newName reason
    · exact .of_eq same
    · exact (KeepsNicks.renamedChannel renamed).trans (.of_eq same)
  | closeConnection id reason =>
    obtain ⟨-, rfl⟩ := performed
    exact .closeConnection id reason
  | receive peerSid message =>
    cases performed
    exact .receive peerSid message
  | remoteKick channelName source targetUid reason =>
    cases performed
    exact .remoteKick channelName source targetUid reason
  | killByUid uid reason =>
    cases performed
    exact .undisturbed (.of_moves (.killByUid node.server uid reason))
  | acceptRemoteUser user =>
    cases performed
    exact .undisturbed (.of_moves (.acceptRemoteUser node.server user))
  | remoteNickChange uid newNick =>
    cases performed
    exact .undisturbed (.of_moves (.remoteNickChange node.server uid newNick))
  | dropLink sid =>
    cases performed
    exact .undisturbed (.of_moves (.dropLink node.server sid))
  | elsewhere => exact .undisturbed performed.1

end SessionCall

/-- The nicks in the registry are valid ones. -/
def Tables.ValidNicks (t : Tables) : Prop :=
  ∀ folded ∈ t.clients, ∃ nick, isValidNick nick = true ∧ folded = t.fold nick

theorem Tables.ValidNicks.kept {t t' : Tables} (valid : t.ValidNicks) (kept : KeepsNicks t t') : t'.ValidNicks := by
  intro folded held
  have fold : t'.fold = t.fold := by
    funext name
    rw [Tables.fold, Tables.fold, kept.info]
  rw [fold]
  rcases kept.nicks folded held with before | new
  · exact valid folded before
  · exact new

/-- Every nick in the registry is a valid one, in every state of every run. -/
theorem SessionCall.run_validNicks {node : Node} (run : machine.Reachable node) : node.server.ValidNicks := by
  refine run.invariant (I := fun node => node.server.ValidNicks) ?_ ?_
  · rintro node ⟨noClients, -, -⟩ folded held
    rw [noClients] at held
    exact absurd held (AList.notMem_empty folded)
  · exact fun node call next valid _ performed => valid.kept (perform_keepsNicks performed)

theorem isNickRest_of_start {c : Char} (start : isNickStart c = true) : isNickRest c = true := by
  rw [isNickStart, Bool.or_eq_true] at start
  rw [isNickRest, Char.isAlphanum]
  rcases start with alpha | special
  · simp [alpha]
  · simp [special]

theorem isValidNick_rest {nick : String} (valid : isValidNick nick = true) : ∀ c ∈ nick.toList, isNickRest c = true := by
  rw [isValidNick] at valid
  cases chars : nick.toList with
  | nil => exact fun _ member => absurd member List.not_mem_nil
  | cons first rest =>
    rw [chars] at valid
    simp only [Bool.and_eq_true, List.all_eq_true] at valid
    intro c member
    rcases List.mem_cons.mp member with rfl | member
    · exact isNickRest_of_start valid.1.1
    · exact valid.2 c member

/-- Whoever holds a valid nick shows one without the sign that ends it in a mask. -/
theorem Tables.ValidNicks.bang_notMem {t : Tables} (valid : t.ValidNicks) {nick : String} (held : t.fold nick ∈ t.clients) :
    '!' ∉ nick.toList := by
  obtain ⟨proper, isValid, same⟩ := valid _ held
  intro member
  have folded := congrArg String.toList same
  rw [Tables.fold, Tables.fold, CaseMapping.fold, CaseMapping.fold, String.toList_ofList, String.toList_ofList] at folded
  have inside := List.mem_map_of_mem (f := t.info.casemapping.foldChar) member
  rw [folded, (CaseMapping.foldChar_eq t.info.casemapping (by decide)).mpr rfl] at inside
  obtain ⟨c, within, isBang⟩ := List.mem_map.mp inside
  rw [(CaseMapping.foldChar_eq t.info.casemapping (by decide)).mp isBang] at within
  exact absurd (isValidNick_rest isValid '!' within) (by decide)

end Ferrixd
