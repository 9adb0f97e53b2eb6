import Ferrixd.Command.Watch
import Ferrixd.Data.Split
import Ferrixd.Invariant.Commands

/-! # Watch lists and their index

Every watcher in the index is a client that has the nick in its list, and the other way round.  MONITOR keeps a
list to 100 nicks; WATCH does where it is not asked for more. -/

namespace Ferrixd

/-- The lists of the clients, and the clients that watch each nick, which are filed under folded nicks. -/
@[ext] structure Watches where
  fold : String → String
  lists : UInt64 → List String
  monitors : Table String (List UInt64)

namespace Watches

variable (w : Watches) (id : UInt64) (folded : String)

def watch : Watches where
  fold := w.fold
  lists other := if other = id then (w.lists id).insert folded else w.lists other
  monitors := w.monitors.insert folded ((watchers w.monitors folded).insert id)

def unwatch : Watches where
  fold := w.fold
  lists other := if other = id then (w.lists id).filter fun name => name != folded else w.lists other
  monitors := Ferrixd.unwatch id w.monitors folded

/-- The index holds exactly what the lists of the connected clients say, and nothing empty. -/
structure Indexed (connected : List UInt64) : Prop where
  index : ∀ folded id, id ∈ watchers w.monitors folded ↔ id ∈ connected ∧ folded ∈ w.lists id
  occupied : ∀ folded ids, w.monitors.lookup folded = some ids → ids ≠ []

/-- No connected client watches more nicks than the limit. -/
def Bounded (connected : List UInt64) : Prop :=
  ∀ id ∈ connected, (w.lists id).length ≤ monitorLimit

end Watches

def Tables.watches (t : Tables) : Watches where
  fold := t.fold
  lists id := (t.entry id).monitor
  monitors := t.monitors

/-! ## Lists and index -/

namespace Watches

variable {w : Watches} {connected : List UInt64} {id : UInt64}

theorem lists_watch (w : Watches) (id other : UInt64) (folded : String) :
    (w.watch id folded).lists other = if other = id then (w.lists id).insert folded else w.lists other := rfl

theorem lists_unwatch (w : Watches) (id other : UInt64) (folded : String) :
    (w.unwatch id folded).lists other =
      if other = id then (w.lists id).filter fun name => name != folded else w.lists other := rfl

theorem Indexed.watch (indexed : w.Indexed connected) (isOpen : id ∈ connected) (folded : String) :
    (w.watch id folded).Indexed connected := by
  constructor
  · intro name other
    rw [lists_watch, Watches.watch, mem_watchers_insert, indexed.index]
    by_cases own : other = id
    · rw [if_pos own, own, List.mem_insert_iff]
      tauto
    · rw [if_neg own]
      tauto
  · intro name ids found
    rw [Watches.watch, Table.lookup_insert_if] at found
    split at found
    · cases found
      exact List.ne_nil_of_mem (List.mem_insert_self)
    · exact indexed.occupied name ids found

theorem occupied_unwatch {monitors : Table String (List UInt64)}
    (occupied : ∀ folded ids, monitors.lookup folded = some ids → ids ≠ []) (folded name : String)
    (ids : List UInt64) (found : (Ferrixd.unwatch id monitors folded).lookup name = some ids) : ids ≠ [] := by
  rw [Ferrixd.unwatch] at found
  split at found
  · exact occupied name ids found
  · dsimp only at found
    split at found
    · rw [Table.lookup_erase_if] at found
      split at found
      · cases found
      · exact occupied name ids found
    · rename_i left
      rw [Table.lookup_insert_if] at found
      split at found
      · cases found
        exact fun empty => left (List.isEmpty_iff.mpr empty)
      · exact occupied name ids found

theorem Indexed.unwatch (indexed : w.Indexed connected) (id : UInt64) (folded : String) :
    (w.unwatch id folded).Indexed connected := by
  constructor
  · intro name other
    rw [lists_unwatch, Watches.unwatch, mem_watchers_unwatch, indexed.index]
    by_cases own : other = id
    · rw [if_pos own, own, List.mem_filter, bne_iff_ne]
      tauto
    · rw [if_neg own]
      tauto
  · exact occupied_unwatch indexed.occupied folded

theorem Bounded.watch (bounded : w.Bounded connected) {folded : String}
    (room : folded ∈ w.lists id ∨ (w.lists id).length < monitorLimit) : (w.watch id folded).Bounded connected := by
  intro other isOpen
  rw [lists_watch]
  split
  · rename_i own
    by_cases listed : folded ∈ w.lists id
    · rw [List.insert_of_mem listed]
      exact own ▸ bounded other isOpen
    · rw [List.length_insert_of_not_mem listed]
      exact room.resolve_left listed
  · exact bounded other isOpen

theorem Bounded.unwatch (bounded : w.Bounded connected) (id : UInt64) (folded : String) :
    (w.unwatch id folded).Bounded connected := by
  intro other isOpen
  rw [lists_unwatch]
  split
  · rename_i own
    exact (List.length_filter_le _ _).trans (own ▸ bounded other isOpen)
  · exact bounded other isOpen

end Watches

/-! ## The commands -/

namespace Server

variable {s : Server} {id : UInt64}

theorem watchNick_watches (s : Server) (id : UInt64) (target : String) :
    (s.watchNick id target).1.watches = s.watches.watch id (s.fold target) := by
  apply Watches.ext
  · rfl
  · funext other
    change ((AList.insert id _ s.entries).lookup other |>.getD {}).monitor = _
    rw [Table.lookup_insert_if, Watches.lists_watch]
    split <;> rfl
  · rfl

theorem unwatchNick_watches (s : Server) (id : UInt64) (folded : String) :
    (unwatchNick id s folded).watches = s.watches.unwatch id folded := by
  have tables := monitorUnwatch_toTables
    (s.modifyEntry id fun entry => { entry with monitor := entry.monitor.filter fun name => name != folded }) folded id
  rw [unwatchNick, tables]
  apply Watches.ext
  · rfl
  · funext other
    change ((AList.insert id _ s.entries).lookup other |>.getD {}).monitor = _
    rw [Table.lookup_insert_if, Watches.lists_unwatch]
    split <;> rfl
  · rfl

theorem answerPresence_toTables (s : Server) (id : UInt64) (asked : List Asked) :
    (s.answerPresence id asked).toTables = s.toTables := by
  rw [answerPresence]
  split <;> split <;> rfl

theorem listWatched_toTables (s : Server) (id : UInt64) (watched : List String) :
    (s.listWatched id watched).toTables = s.toTables := by
  rw [listWatched, numeric_toTables]
  refine foldl_invariant (I := fun later : Server => later.toTables = s.toTables) _ _ ?_ s rfl
  exact fun _ _ _ same => same

section Rules

variable {I : Watches → Prop} {J : Watches → Prop}

/-- What watching with room and not watching any more keep, MONITOR keeps. -/
theorem watchAll_keeps
    (watch : ∀ w folded, I w → (folded ∈ w.lists id ∨ (w.lists id).length < monitorLimit) → I (w.watch id folded))
    (targets : List String) {s : Server} (asked : List Asked) (holds : I s.watches) :
    I (watchAll id targets s asked).1.watches := by
  induction targets generalizing s asked with
  | nil => exact holds
  | cons target targets ih =>
    rw [watchAll]
    split
    · exact holds
    · rename_i free
      refine ih _ (?_ : I (s.watchNick id target).1.watches)
      rw [watchNick_watches]
      refine watch _ _ holds ?_
      rw [not_and_or, not_not, Nat.not_le] at free
      exact free

theorem unwatchAll_keeps (unwatch : ∀ w folded, I w → I (w.unwatch id folded)) (watched : List String) {s : Server}
    (holds : I s.watches) : I (watched.foldl (unwatchNick id) s).watches := by
  refine foldl_invariant (I := fun later : Server => I later.watches) _ _ ?_ s holds
  intro later folded _ kept
  rw [unwatchNick_watches]
  exact unwatch _ folded kept

theorem cmdMonitor_keeps
    (watch : ∀ w folded, I w → (folded ∈ w.lists id ∨ (w.lists id).length < monitorLimit) → I (w.watch id folded))
    (unwatch : ∀ w folded, I w → I (w.unwatch id folded)) (params : List String) (holds : I s.watches) :
    I (s.cmdMonitor id params).watches := by
  cases params with
  | nil => exact holds
  | cons sub rest =>
    simp only [cmdMonitor]
    split
    · cases rest with
      | nil => exact holds
      | cons list _ =>
        dsimp only
        rw [answerPresence_toTables]
        exact watchAll_keeps watch _ [] holds
    split
    · cases rest with
      | nil => exact holds
      | cons list _ => exact unwatchAll_keeps unwatch _ holds
    split
    · exact unwatchAll_keeps unwatch _ holds
    split
    · rw [listWatched_toTables]
      exact holds
    split
    · rw [answerPresence_toTables]
      exact holds
    · exact holds

end Rules

end Server

/-! ## Words of WATCH -/

/-- The nick that a word asks to watch. -/
def addedNick (token : String) : Option String :=
  match token.toList with
  | '+' :: nick => if nick = [] then none else some (String.ofList nick)
  | _ => none

/-- The nick that a word asks not to watch any more. -/
def removedNick (token : String) : Option String :=
  match token.toList with
  | '-' :: nick => if nick = [] then none else some (String.ofList nick)
  | _ => none

def clearsList (token : String) : Bool :=
  match token.toList with
  | c :: _ => c = 'C' || c = 'c'
  | [] => false

/-- The list of a client after a word. -/
def afterWord (fold : String → String) (list : List String) (token : String) : List String :=
  match addedNick token, removedNick token with
  | some nick, _ => list.insert (fold nick)
  | none, some nick => list.filter fun name => name != fold nick
  | none, none => if clearsList token then [] else list

/-- No word asks for a new nick when the list is full. -/
def WordsFit (fold : String → String) : List String → List String → Prop
  | _, [] => True
  | list, token :: rest =>
    (∀ nick, addedNick token = some nick → fold nick ∈ list ∨ list.length < monitorLimit) ∧
      WordsFit fold (afterWord fold list token) rest

/-- A word keeps the list within the limit exactly if it does not ask for a new nick when the list is full. -/
theorem afterWord_short_iff {fold : String → String} {list : List String} (short : list.length ≤ monitorLimit)
    (token : String) :
    (afterWord fold list token).length ≤ monitorLimit ↔
      ∀ nick, addedNick token = some nick → fold nick ∈ list ∨ list.length < monitorLimit := by
  rw [afterWord]
  cases added : addedNick token with
  | some nick =>
    simp only [Option.some.injEq, forall_eq']
    by_cases listed : fold nick ∈ list
    · rw [List.insert_of_mem listed]
      exact iff_of_true short (.inl listed)
    · rw [List.length_insert_of_not_mem listed, Nat.succ_le_iff]
      exact ⟨.inr, fun room => room.resolve_left listed⟩
  | none =>
    refine iff_of_true ?_ nofun
    cases removedNick token with
    | some nick => exact (List.length_filter_le _ _).trans short
    | none =>
      dsimp only
      split
      · exact Nat.zero_le _
      · exact short

/-- The words fit exactly if the list is within the limit after each of them. -/
theorem wordsFit_iff {fold : String → String} {list : List String} (short : list.length ≤ monitorLimit)
    (tokens : List String) :
    WordsFit fold list tokens ↔
      ∀ count, ((tokens.take count).foldl (afterWord fold) list).length ≤ monitorLimit := by
  induction tokens generalizing list with
  | nil => simp [WordsFit, short]
  | cons token rest ih =>
    rw [WordsFit, ← afterWord_short_iff short token]
    constructor
    · rintro ⟨next, fit⟩ count
      cases count with
      | zero => exact short
      | succ count => exact (ih next).mp fit count
    · intro within
      have next : (afterWord fold list token).length ≤ monitorLimit := within 1
      exact ⟨next, (ih next).mpr fun count => within (count + 1)⟩

namespace Server

variable {s : Server} {id : UInt64}

theorem unwatchAll_watches (watched : List String) (s : Server) :
    (watched.foldl (unwatchNick id) s).watches = watched.foldl (fun w folded => w.unwatch id folded) s.watches := by
  induction watched generalizing s with
  | nil => rfl
  | cons folded rest ih => rw [List.foldl_cons, ih, unwatchNick_watches, List.foldl_cons]

theorem listToken_toTables (id : UInt64) (s : Server) (folded : String) :
    (listToken id s folded).toTables = s.toTables := by
  rw [listToken]
  split <;> rfl

theorem watchToken_watches (s : Server) (id : UInt64) (nick : String) :
    (s.watchToken id nick).watches = s.watches.watch id (s.fold nick) := by
  rw [← watchNick_watches, watchToken]
  dsimp only
  split <;> rfl

/-- A word watches a nick, stops watching one or all, or leaves the lists alone. -/
theorem watchWord_watches (s : Server) (id : UInt64) (token : String) :
    (watchWord id s token).watches = match addedNick token, removedNick token with
      | some nick, _ => s.watches.watch id (s.fold nick)
      | none, some nick => s.watches.unwatch id (s.fold nick)
      | none, none =>
        if clearsList token then (s.entry id).monitor.foldl (fun w folded => w.unwatch id folded) s.watches
        else s.watches := by
  cases chars : token.toList with
  | nil => simp [watchWord, addedNick, removedNick, clearsList, chars]
  | cons c nick =>
    by_cases plus : c = '+'
    · subst plus
      simp only [watchWord, addedNick, removedNick, clearsList, chars]
      by_cases empty : nick = []
      · simp [empty]
      · simp [empty, watchToken_watches]
    by_cases minus : c = '-'
    · subst minus
      simp only [watchWord, addedNick, removedNick, clearsList, chars]
      by_cases empty : nick = []
      · simp [empty]
      · simp only [empty, if_false]
        exact unwatchNick_watches s id _
    -- neither sign begins the word: it clears the list, shows it, or is something else
    have noAdded : addedNick token = none := by
      rw [addedNick, chars]
      split
      · rename_i same
        exact absurd (List.cons.inj same).1 plus
      · rfl
    have noRemoved : removedNick token = none := by
      rw [removedNick, chars]
      split
      · rename_i same
        exact absurd (List.cons.inj same).1 minus
      · rfl
    have listed : ((s.entry id).monitor.foldl (listToken id) s).toTables = s.toTables :=
      foldl_invariant (I := fun later : Server => later.toTables = s.toTables) _ _
        (fun later folded _ same => (listToken_toTables id later folded).trans same) s rfl
    rw [noAdded, noRemoved, watchWord, clearsList, chars]
    split
    · rename_i same
      exact absurd (List.cons.inj same).1 plus
    · rename_i same
      exact absurd (List.cons.inj same).1 minus
    · rename_i same
      cases same
      by_cases clear : c = 'C' ∨ c = 'c'
      · rw [if_pos clear]
        simp only [Bool.or_eq_true, decide_eq_true_eq, clear, if_true]
        exact unwatchAll_watches _ s
      · simp only [Bool.or_eq_true, decide_eq_true_eq, clear, if_false]
        split
        · rw [numeric_toTables, listed]
        · split
          · exact congrArg Tables.watches (answerPresence_toTables s id
              ((s.entry id).monitor.map fun folded => ⟨folded, folded, s.presenceMask folded⟩))
          · rfl
    · rename_i same
      cases same

theorem watchWord_keeps {I : Watches → Prop} (watch : ∀ w folded, I w → I (w.watch id folded))
    (unwatch : ∀ w folded, I w → I (w.unwatch id folded)) (token : String) (holds : I s.watches) :
    I (watchWord id s token).watches := by
  rw [watchWord_watches]
  split
  · exact watch _ _ holds
  · exact unwatch _ _ holds
  · split
    · exact foldl_invariant _ _ (fun w folded _ => unwatch w folded) _ holds
    · exact holds

theorem unwatchAll_lists (w : Watches) (watched : List String) (id other : UInt64) :
    (watched.foldl (fun w folded => w.unwatch id folded) w).lists other =
      if other = id then (w.lists id).filter fun name => name ∉ watched else w.lists other := by
  induction watched generalizing w with
  | nil =>
    rw [List.foldl_nil]
    split
    · rename_i own
      simp [own]
    · rfl
  | cons folded rest ih =>
    rw [List.foldl_cons, ih, Watches.lists_unwatch, Watches.lists_unwatch, if_pos rfl, List.filter_filter]
    split
    · apply List.filter_congr
      intro name _
      rw [Bool.eq_iff_iff, Bool.and_eq_true, decide_eq_true_iff, bne_iff_ne, decide_eq_true_iff, List.mem_cons]
      tauto
    · rfl

theorem watchWord_fold (s : Server) (id : UInt64) (token : String) : (watchWord id s token).fold = s.fold :=
  watchWord_keeps (I := fun w => w.fold = s.fold) (fun _ _ same => same) (fun _ _ same => same) token rfl

/-- A word changes the list of its client only. -/
theorem watchWord_lists (s : Server) (id other : UInt64) (token : String) :
    (watchWord id s token).watches.lists other =
      if other = id then afterWord s.fold (s.watches.lists id) token else s.watches.lists other := by
  rw [watchWord_watches, afterWord]
  cases addedNick token with
  | some nick => exact Watches.lists_watch _ _ _ _
  | none =>
    cases removedNick token with
    | some nick => exact Watches.lists_unwatch _ _ _ _
    | none =>
      dsimp only
      cases clearsList token with
      | true =>
        rw [if_pos rfl, if_pos rfl, unwatchAll_lists]
        congr 1
        rw [List.filter_eq_nil_iff]
        intro name listed
        rw [decide_eq_true_iff, not_not]
        exact listed
      | false =>
        simp only [Bool.false_eq_true, if_false]
        split
        · rename_i own
          rw [own]
        · rfl

theorem watchWords_lists (s : Server) (id other : UInt64) (tokens : List String) :
    (tokens.foldl (watchWord id) s).watches.lists other =
      if other = id then tokens.foldl (afterWord s.fold) (s.watches.lists id) else s.watches.lists other := by
  induction tokens generalizing s with
  | nil =>
    rw [List.foldl_nil]
    split
    · rename_i own
      rw [own]
      rfl
    · rfl
  | cons token rest ih =>
    rw [List.foldl_cons, ih, watchWord_fold, watchWord_lists, watchWord_lists, if_pos rfl, List.foldl_cons]
    split <;> rfl

theorem cmdWatch_keeps {I : Watches → Prop} (watch : ∀ w folded, I w → I (w.watch id folded))
    (unwatch : ∀ w folded, I w → I (w.unwatch id folded)) (params : List String) (holds : I s.watches) :
    I (s.cmdWatch id params).watches := by
  rw [cmdWatch]
  split
  · exact cmdMonitor_keeps (fun w folded kept _ => watch w folded kept) unwatch ["L"] holds
  · exact foldl_invariant (I := fun later : Server => I later.watches) _ _
      (fun later token _ kept => watchWord_keeps watch unwatch token kept) s holds

theorem cmdWatch_lists (s : Server) (id other : UInt64) (params : List String) :
    (s.cmdWatch id params).watches.lists other =
      if other = id then params.foldl (afterWord s.fold) (s.watches.lists id) else s.watches.lists other := by
  rw [cmdWatch]
  split
  · rename_i none
    have same : (s.cmdMonitor id ["L"]).watches = s.watches :=
      congrArg Tables.watches (listWatched_toTables s id (s.entry id).monitor)
    rw [List.isEmpty_iff.mp none, List.foldl_nil, same]
    split
    · rename_i own
      rw [own]
    · rfl
  · exact watchWords_lists s id other params

theorem closeConnection_watches (s : Server) (id : UInt64) (reason : String) :
    (s.closeConnection id reason).watches =
      { s.watches with monitors := (s.watches.lists id).foldl (Ferrixd.unwatch id) s.monitors } := by
  rw [closeConnection]
  split <;> rw [disconnect_toTables] <;> rfl

theorem connect_watches (s : Server) (host : String) :
    (s.connect host).watches =
      { s.watches with lists := fun id => if id = s.nextId then [] else s.watches.lists id } := by
  apply Watches.ext
  · rfl
  · funext id
    change ((AList.insert s.nextId _ s.entries).lookup id |>.getD {}).monitor = _
    rw [Table.lookup_insert_if]
    by_cases new : id = s.nextId
    · rw [if_pos new]
      exact (if_pos new).symm
    · rw [if_neg new]
      exact (if_neg new).symm
  · rfl

end Server

/-! ## Runs -/

/-- What changes watch lists, and everything else in between. -/
inductive WatchCall where
  | connect (host : String)
  | cmdMonitor (id : UInt64) (params : List String)
  | cmdWatch (id : UInt64) (params : List String)
  | closeConnection (id : UInt64) (reason : String)
  | elsewhere

namespace WatchCall

/-- Only open connections issue commands.  The counter of ids does not come round to one that is in use. -/
def Performs (node node' : Node) : WatchCall → Prop
  | connect host => node.server.nextId ∉ node.connected ∧
      node' = ⟨node.server.connect host, node.server.nextId :: node.connected⟩
  | cmdMonitor id params => id ∈ node.connected ∧ node' = ⟨node.server.cmdMonitor id params, node.connected⟩
  | cmdWatch id params => id ∈ node.connected ∧ node' = ⟨node.server.cmdWatch id params, node.connected⟩
  | closeConnection id reason => id ∈ node.connected ∧
      node' = ⟨node.server.closeConnection id reason, node.connected.filter fun other => other != id⟩
  | elsewhere => node'.server.watches = node.server.watches ∧ node'.connected = node.connected

/-- A server starts without clients. -/
def machine : Machine Node WatchCall where
  start node := node.server.monitors = ∅ ∧ node.connected = []
  step node call node' := call.Performs node node'

/-- `WATCH` is not asked for a new nick when the list is full. -/
def Fits (node : Node) : WatchCall → Prop
  | cmdWatch id params => WordsFit node.server.fold (node.server.entry id).monitor params
  | _ => True

variable {node next : Node} {call : WatchCall}

theorem Indexed.perform (indexed : node.server.watches.Indexed node.connected)
    (performed : call.Performs node next) : next.server.watches.Indexed next.connected := by
  cases call with
  -- a new client watches nothing and is watched for nothing
  | connect host =>
    obtain ⟨fresh, rfl⟩ := performed
    rw [Server.connect_watches]
    refine ⟨fun folded id => ?_, indexed.occupied⟩
    dsimp only
    rw [indexed.index folded id, List.mem_cons]
    by_cases new : id = node.server.nextId
    · rw [if_pos new]
      exact iff_of_false (fun held => fresh (new ▸ held.1)) fun held => absurd held.2 List.not_mem_nil
    · rw [if_neg new]
      tauto
  | cmdMonitor id params =>
    obtain ⟨isOpen, rfl⟩ := performed
    exact Server.cmdMonitor_keeps (I := fun w => w.Indexed node.connected)
      (fun w folded kept _ => kept.watch isOpen folded) (fun w folded kept => kept.unwatch id folded) params indexed
  | cmdWatch id params =>
    obtain ⟨isOpen, rfl⟩ := performed
    exact Server.cmdWatch_keeps (I := fun w => w.Indexed node.connected)
      (fun w folded kept => kept.watch isOpen folded) (fun w folded kept => kept.unwatch id folded) params indexed
  | closeConnection id reason =>
    obtain ⟨isOpen, rfl⟩ := performed
    rw [Server.closeConnection_watches]
    constructor
    · intro folded other
      dsimp only
      rw [mem_watchers_unwatchAll, List.mem_filter, bne_iff_ne]
      have before := indexed.index folded other
      change other ∈ watchers node.server.monitors folded ↔ _ at before
      rw [before]
      by_cases own : other = id
      · rw [own]
        tauto
      · tauto
    · exact foldl_invariant (I := fun monitors : Table String (List UInt64) =>
        ∀ folded ids, monitors.lookup folded = some ids → ids ≠ []) _ _
        (fun monitors folded _ occupied => Watches.occupied_unwatch occupied folded) _ indexed.occupied
  | elsewhere =>
    obtain ⟨same, connected⟩ := performed
    rw [same, connected]
    exact indexed

theorem Bounded.perform (bounded : node.server.watches.Bounded node.connected)
    (performed : call.Performs node next) (fits : call.Fits node) :
    next.server.watches.Bounded next.connected := by
  cases call with
  | connect host =>
    obtain ⟨fresh, rfl⟩ := performed
    rw [Server.connect_watches]
    intro id isOpen
    dsimp only
    split
    · exact Nat.zero_le _
    · rename_i old
      exact bounded id ((List.mem_cons.mp isOpen).resolve_left old)
  | cmdMonitor id params =>
    obtain ⟨isOpen, rfl⟩ := performed
    exact Server.cmdMonitor_keeps (I := fun w => w.Bounded node.connected)
      (fun w folded kept room => kept.watch room) (fun w folded kept => kept.unwatch id folded) params bounded
  -- WATCH does not look at the length of the list, so what fits is the condition
  | cmdWatch id params =>
    obtain ⟨isOpen, rfl⟩ := performed
    intro other otherOpen
    rw [Server.cmdWatch_lists]
    split
    · have within := (wordsFit_iff (bounded id isOpen) params).mp fits params.length
      rwa [List.take_length] at within
    · exact bounded other otherOpen
  | closeConnection id reason =>
    obtain ⟨isOpen, rfl⟩ := performed
    rw [Server.closeConnection_watches]
    exact fun other stays => bounded other (List.mem_of_mem_filter stays)
  | elsewhere =>
    obtain ⟨same, connected⟩ := performed
    rw [same, connected]
    exact bounded

theorem run_indexed (run : machine.Reachable node) : node.server.watches.Indexed node.connected := by
  refine run.invariant (I := fun node => node.server.watches.Indexed node.connected) ?_ ?_
  · intro node ⟨empty, noConnections⟩
    rw [noConnections]
    have nothing : node.server.watches.monitors = ∅ := empty
    constructor
    · intro folded id
      rw [watchers, nothing]
      exact iff_of_false List.not_mem_nil fun held => absurd held.1 List.not_mem_nil
    · intro folded ids found
      rw [nothing] at found
      cases found
  · exact fun _ _ _ indexed _ performed => Indexed.perform indexed performed

theorem run_bounded (run : machine.GuardedRun (fun node call => call.Fits node) node) :
    node.server.watches.Bounded node.connected := by
  refine run.invariant (I := fun node => node.server.watches.Bounded node.connected) ?_ ?_
  · intro node ⟨_, noConnections⟩ id isOpen
    rw [noConnections] at isOpen
    cases isOpen
  · exact fun _ _ _ bounded fits performed => Bounded.perform bounded performed fits

/-- In every run the index holds the clients that are connected and have a nick in their list, and nothing that is
empty.  In every run in which `WATCH` is not asked for a new nick when the list is full, no list has more than 100,
and a `WATCH` keeps to that after each of its words exactly if it is not asked for too much. -/
theorem runs_watch (node : Node) :
    (machine.Reachable node →
      (∀ folded id, id ∈ watchers node.server.monitors folded ↔
        id ∈ node.connected ∧ folded ∈ (node.server.entry id).monitor) ∧
      ∀ folded ids, node.server.monitors.lookup folded = some ids → ids ≠ []) ∧
    (machine.GuardedRun (fun node call => call.Fits node) node →
      (∀ id ∈ node.connected, (node.server.entry id).monitor.length ≤ monitorLimit) ∧
      ∀ id ∈ node.connected, ∀ params, Fits node (.cmdWatch id params) ↔
        ∀ count, ((node.server.cmdWatch id (params.take count)).entry id).monitor.length ≤ monitorLimit) := by
  constructor
  · intro run
    exact ⟨(run_indexed run).index, (run_indexed run).occupied⟩
  · intro run
    have bounded := run_bounded run
    refine ⟨bounded, fun id isOpen params => ?_⟩
    refine (wordsFit_iff (bounded id isOpen) params).trans (forall_congr' fun count => ?_)
    have lists := Server.cmdWatch_lists node.server id id (params.take count)
    rw [if_pos rfl] at lists
    rw [← lists]
    rfl

/-- A server with one client. -/
def lonely : Node :=
  ⟨Server.alpha.connect "host.example", [1]⟩

theorem lonely_run (guard : Node → WatchCall → Prop) (free : ∀ node host, guard node (.connect host)) :
    machine.GuardedRun guard lonely := by
  have started : machine.GuardedRun guard ⟨Server.alpha, []⟩ := .start ⟨rfl, rfl⟩
  exact .step (e := .connect "host.example") started (free _ _) ⟨List.not_mem_nil, rfl⟩

/-- It watches two nicks. -/
def lonelyMonitors : Node :=
  let (server, asked) := Server.watchAll 1 ["alice", "carol"] lonely.server []
  ⟨server.answerPresence 1 asked, [1]⟩

theorem lonelyMonitors_cmdMonitor : lonelyMonitors = ⟨lonely.server.cmdMonitor 1 ["+", "alice,carol"], [1]⟩ := by
  have nicks : "alice,carol".splitOn "," = ["alice", "carol"] := by
    have last : "carol".splitOn "," = ["carol"] := splitOn_clean (by decide)
    exact (splitOn_cons (show ',' ∉ "alice".toList by decide) "carol").trans (congrArg _ last)
  have targets : monitorTargets "alice,carol" = ["alice", "carol"] := by
    rw [monitorTargets, nicks]
    decide
  simp only [Server.cmdMonitor, if_true, targets]
  rfl

/-- Then it watches one more, and one of the two no longer. -/
def lonelyWatching : Node :=
  ⟨lonelyMonitors.server.cmdWatch 1 ["+bob", "-carol"], [1]⟩

theorem lonelyWatching_run : machine.GuardedRun (fun node call => call.Fits node) lonelyWatching := by
  have connected : machine.GuardedRun (fun node call => call.Fits node) lonely := lonely_run _ fun _ _ => trivial
  have monitors : machine.GuardedRun (fun node call => call.Fits node) lonelyMonitors :=
    .step (e := .cmdMonitor 1 ["+", "alice,carol"]) connected trivial ⟨List.mem_cons_self, lonelyMonitors_cmdMonitor⟩
  have fits : Fits lonelyMonitors (.cmdWatch 1 ["+bob", "-carol"]) :=
    ⟨fun _ _ => .inr (by decide +kernel), fun _ _ => .inr (by decide +kernel), trivial⟩
  exact .step (e := .cmdWatch 1 ["+bob", "-carol"]) monitors fits ⟨List.mem_cons_self, rfl⟩

theorem runs_watch_lonely :
    (lonelyWatching.server.entry 1).monitor = ["bob", "alice"] ∧
    (1 ∈ watchers lonelyWatching.server.monitors "bob" ↔
      1 ∈ lonelyWatching.connected ∧ "bob" ∈ (lonelyWatching.server.entry 1).monitor) ∧
    (Fits lonelyWatching (.cmdWatch 1 ["+dave", "-bob"]) ↔
      ∀ count, ((lonelyWatching.server.cmdWatch 1 (["+dave", "-bob"].take count)).entry 1).monitor.length ≤
        monitorLimit) :=
  ⟨by decide +kernel, ((runs_watch lonelyWatching).1 lonelyWatching_run.reachable).1 "bob" 1,
    ((runs_watch lonelyWatching).2 lonelyWatching_run).2 1 List.mem_cons_self ["+dave", "-bob"]⟩

/-- One more nick than the limit. -/
def manyWords : List String :=
  (List.range 101).map fun n => "+n" ++ toString n

/-- One `WATCH` after the other. -/
def watchEach (node : Node) (words : List String) : Node :=
  ⟨words.foldl (fun s word => s.cmdWatch 1 [word]) node.server, node.connected⟩

theorem watchEach_run {node : Node} (isOpen : 1 ∈ node.connected) (run : machine.Reachable node)
    (words : List String) : machine.Reachable (watchEach node words) := by
  induction words generalizing node with
  | nil => exact run
  | cons word rest ih =>
    have next : machine.Reachable ⟨node.server.cmdWatch 1 [word], node.connected⟩ :=
      .step (e := .cmdWatch 1 [word]) run trivial ⟨isOpen, rfl⟩
    exact @ih ⟨node.server.cmdWatch 1 [word], node.connected⟩ isOpen next

theorem watchEach_lists (node : Node) (words : List String) :
    ((watchEach node words).server.entry 1).monitor =
      words.foldl (afterWord node.server.fold) (node.server.entry 1).monitor := by
  have list := Server.watchWords_lists node.server 1 1 words
  rw [if_pos rfl] at list
  exact list

/-- A client that watches 101 nicks, one after the other, gets all of them. -/
theorem watch_exceeds : ¬ ∀ node, machine.Reachable node →
    ∀ id ∈ node.connected, (node.server.entry id).monitor.length ≤ monitorLimit := by
  intro within
  have reachable : machine.Reachable lonely := lonely_run _ fun _ _ => trivial
  have few := within _ (watchEach_run List.mem_cons_self reachable manyWords) 1 List.mem_cons_self
  have many : (manyWords.foldl (afterWord lonely.server.fold) (lonely.server.entry 1).monitor).length = 101 := by
    decide +kernel
  rw [watchEach_lists, many] at few
  exact absurd few (by decide)

end WatchCall

end Ferrixd
