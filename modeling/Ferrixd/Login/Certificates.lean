import Ferrixd.Data.Machine
import Ferrixd.Login.Accounts

/-! # Logins by certificate

One certificate may be registered for several accounts.  A login that names one of them is decided on the first
account, in the order of the map, that lists the certificate. -/

namespace Ferrixd

/-! ## The accounts of a run -/

/-- A call that changes the accounts. -/
inductive AccountCall where
  | upsertPassword (name passwordHash : String)
  | upsertScram (name : String) (creds : ScramCreds)
  | setCredentials (name passwordHash : String) (creds : ScramCreds)
  | addFingerprint (name fingerprint : String)
  | restoreIfAbsent (display : String) (passwordHash : Option String) (scram : Option ScramCreds)
  | clear

def AccountCall.perform (store : AccountStore) : AccountCall → AccountStore
  | .upsertPassword name passwordHash => store.upsertPassword name passwordHash
  | .upsertScram name creds => store.upsertScram name creds
  | .setCredentials name passwordHash creds => store.setCredentials name passwordHash creds
  | .addFingerprint name fingerprint => store.addFingerprint name fingerprint
  | .restoreIfAbsent display passwordHash scram => store.restoreIfAbsent display passwordHash scram
  | .clear => store.clear

/-- A store starts empty. -/
def accountMachine : Machine AccountStore AccountCall where
  start store := store.accounts = ∅
  step store call next := next = call.perform store

namespace AccountStore

/-- Every account is filed under its folded name. -/
def Keyed (store : AccountStore) : Prop :=
  ∀ key account, store.accounts.lookup key = some account → store.casemapping.fold account.display = key

variable {store order : AccountStore}

theorem Keyed.entry (keyed : store.Keyed) (name : String) {change : Account → Account}
    (display : ∀ account, (change account).display = account.display) : (store.entry name change).Keyed := by
  intro key account found
  rw [lookup_entry] at found
  rw [casemapping_entry]
  split at found
  · rename_i here
    cases found
    rw [display]
    cases stored : store.accounts.lookup key with
    | none => exact here.symm
    | some before => exact keyed key before stored
  · exact keyed key account found

theorem Keyed.perform (keyed : store.Keyed) (call : AccountCall) : (call.perform store).Keyed := by
  cases call with
  | upsertPassword name passwordHash => exact keyed.entry name fun _ => rfl
  | upsertScram name creds => exact keyed.entry name fun _ => rfl
  | setCredentials name passwordHash creds => exact keyed.entry name fun _ => rfl
  | addFingerprint name fingerprint => exact keyed.entry name fun _ => rfl
  | restoreIfAbsent display passwordHash scram =>
    intro key account found
    rw [AccountCall.perform, lookup_restoreIfAbsent] at found
    rw [AccountCall.perform, casemapping_restoreIfAbsent]
    -- an account that is there keeps its own name
    cases stored : store.accounts.lookup key with
    | some before =>
      rw [stored, Option.some_or] at found
      cases found
      exact keyed key account stored
    | none =>
      rw [stored, Option.none_or] at found
      split at found
      · rename_i here
        cases found
        exact here.symm
      · cases found
  | clear =>
    intro key account found
    rw [AccountCall.perform, lookup_clear] at found
    cases found

theorem run_keyed (run : accountMachine.Reachable store) : store.Keyed := by
  refine run.invariant (I := Keyed) ?_ ?_
  · intro first empty key account found
    rw [show first.accounts = ∅ from empty] at found
    cases found
  · rintro before call next keyed - rfl
    exact keyed.perform call

/-! ## What a login by certificate should find -/

/-- The same accounts, in another order perhaps. -/
structure SameAccounts (store order : AccountStore) : Prop where
  casemapping : order.casemapping = store.casemapping
  lookup : ∀ key, order.accounts.lookup key = store.accounts.lookup key

theorem SameAccounts.refl (store : AccountStore) : store.SameAccounts store :=
  ⟨rfl, fun _ => rfl⟩

theorem Keyed.reorder (keyed : store.Keyed) (same : store.SameAccounts order) : order.Keyed := by
  intro key account found
  rw [same.lookup] at found
  rw [same.casemapping]
  exact keyed key account found

/-- The account filed under a key lists a fingerprint. -/
def Lists (store : AccountStore) (key fingerprint : String) : Prop :=
  ∃ account, store.accounts.lookup key = some account ∧ fingerprint ∈ account.fingerprints

/-- A login that names an account succeeds exactly when that account lists the fingerprint, and one without a
name exactly when some account does. -/
def FindsCertificate (store : AccountStore) (name fingerprint : String) : Prop :=
  (name ≠ "" → ∀ display, store.verifyFingerprint name fingerprint = some display ↔
    ∃ account, store.accounts.lookup (store.casemapping.fold name) = some account ∧
      fingerprint ∈ account.fingerprints ∧ account.display = display) ∧
  (name = "" → ((∃ display, store.verifyFingerprint name fingerprint = some display) ↔
    ∃ key, store.Lists key fingerprint))

/-- The first account in the order of the map that lists a fingerprint. -/
def firstListing (store : AccountStore) (fingerprint : String) : Option Account :=
  store.accounts.findVal? fun account => account.fingerprints.contains fingerprint

theorem firstListing_some {fingerprint : String} {account : Account}
    (first : store.firstListing fingerprint = some account) :
    fingerprint ∈ account.fingerprints ∧ ∃ key, store.accounts.lookup key = some account := by
  obtain ⟨lists, key, found⟩ := Table.findVal?_some first
  exact ⟨List.contains_iff_mem.mp lists, key, found⟩

theorem firstListing_of_lists {key fingerprint : String} (lists : store.Lists key fingerprint) :
    ∃ account, store.firstListing fingerprint = some account := by
  obtain ⟨account, found, listed⟩ := lists
  cases first : store.firstListing fingerprint with
  | some other => exact ⟨other, rfl⟩
  | none =>
    have unlisted := Table.findVal?_none.mp first key account found
    rw [List.contains_iff_mem.mpr listed] at unlisted
    cases unlisted

/-- The decision on the first account that lists the fingerprint. -/
theorem verifyFingerprint_iff {name fingerprint display : String} :
    store.verifyFingerprint name fingerprint = some display ↔
      ∃ account, store.firstListing fingerprint = some account ∧ account.display = display ∧
        (name = "" ∨ store.casemapping.fold name = store.casemapping.fold account.display) := by
  rw [verifyFingerprint, ← firstListing]
  cases store.firstListing fingerprint with
  | none => simp
  | some account =>
    dsimp only
    split
    · rename_i refused
      simp only [Option.some.injEq, exists_eq_left']
      tauto
    · rename_i accepted
      simp only [Option.some.injEq, exists_eq_left']
      tauto

/-- In one order of the map a login finds what it should exactly when the account it names, if that lists the
fingerprint, is the first one that does. -/
theorem Keyed.findsCertificate_iff (keyed : store.Keyed) (name fingerprint : String) :
    store.FindsCertificate name fingerprint ↔
      (name ≠ "" → store.Lists (store.casemapping.fold name) fingerprint →
        store.firstListing fingerprint = store.accounts.lookup (store.casemapping.fold name)) := by
  constructor
  · rintro ⟨named, -⟩ asked ⟨account, found, listed⟩
    obtain ⟨first, isFirst, -, same⟩ := verifyFingerprint_iff.mp ((named asked account.display).mpr ⟨account, found, listed, rfl⟩)
    obtain ⟨-, key, stored⟩ := firstListing_some isFirst
    rw [same.resolve_left asked, keyed key first stored, stored, isFirst]
  · intro decided
    refine ⟨fun asked display => ?_, fun unnamed => ?_⟩
    · rw [verifyFingerprint_iff]
      constructor
      · rintro ⟨first, isFirst, shown, same⟩
        obtain ⟨listed, key, stored⟩ := firstListing_some isFirst
        refine ⟨first, ?_, listed, shown⟩
        rw [same.resolve_left asked, keyed key first stored, stored]
      · rintro ⟨account, found, listed, shown⟩
        refine ⟨account, ?_, shown, .inr (keyed _ account found).symm⟩
        rw [decided asked ⟨account, found, listed⟩, found]
    · constructor
      · rintro ⟨display, verified⟩
        obtain ⟨first, isFirst, -⟩ := verifyFingerprint_iff.mp verified
        obtain ⟨listed, key, stored⟩ := firstListing_some isFirst
        exact ⟨key, first, stored, listed⟩
      · rintro ⟨key, lists⟩
        -- without a name, whoever lists the certificate first is logged in
        obtain ⟨first, isFirst⟩ := firstListing_of_lists lists
        exact ⟨first.display, verifyFingerprint_iff.mpr ⟨first, isFirst, rfl, .inl unnamed⟩⟩

/-- Any account may be the first one of the map. -/
theorem exists_order_first {key : String} {account : Account} {fingerprint : String}
    (found : store.accounts.lookup key = some account) (listed : fingerprint ∈ account.fingerprints) :
    ∃ order, store.SameAccounts order ∧ order.firstListing fingerprint = some account := by
  refine ⟨{ store with accounts := store.accounts.insert key account }, ⟨rfl, fun other => ?_⟩, ?_⟩
  · dsimp only
    rw [Table.lookup_insert_if]
    split
    · rename_i same
      rw [same, found]
    · rfl
  · rw [firstListing, Table.findVal?, Table.values, AList.entries_insert, List.map_cons, List.find?_cons_of_pos]
    exact List.contains_iff_mem.mpr listed

/-- Whatever the order of the map, a login finds what it should exactly when it names no account, or one that does
not list the fingerprint, or the only one that does. -/
theorem findsCertificate_always_iff (run : accountMachine.Reachable store) (name fingerprint : String) :
    (∀ order, store.SameAccounts order → order.FindsCertificate name fingerprint) ↔
      (name = "" ∨ ¬ store.Lists (store.casemapping.fold name) fingerprint ∨
        ∀ key, store.Lists key fingerprint → key = store.casemapping.fold name) := by
  have keyed := run_keyed run
  constructor
  · intro finds
    by_cases asked : name = ""
    · exact .inl asked
    by_cases lists : store.Lists (store.casemapping.fold name) fingerprint
    · refine .inr (.inr fun key other => ?_)
      obtain ⟨account, found, listed⟩ := other
      -- an order in which another account that lists it comes first
      obtain ⟨order, same, first⟩ := exists_order_first found listed
      obtain ⟨named, isNamed, isListed⟩ := lists
      have decided := ((keyed.reorder same).findsCertificate_iff name fingerprint).mp (finds order same) asked
      rw [same.casemapping, first, same.lookup, isNamed] at decided
      have equal := decided ⟨named, by rw [same.lookup, isNamed], isListed⟩
      cases equal
      rw [← keyed key _ found, keyed _ _ isNamed]
    · exact .inr (.inl lists)
  · intro condition order same
    rw [(keyed.reorder same).findsCertificate_iff, same.casemapping, same.lookup]
    rintro asked ⟨named, isNamed, listed⟩
    rw [same.lookup] at isNamed
    obtain unnamed | unlisted | only := condition
    · exact absurd unnamed asked
    · exact absurd ⟨named, isNamed, listed⟩ unlisted
    · obtain ⟨first, isFirst⟩ := firstListing_of_lists ⟨named, by rw [same.lookup, isNamed], listed⟩
      obtain ⟨isListed, key, stored⟩ := firstListing_some isFirst
      rw [same.lookup] at stored
      rw [isFirst, ← only key ⟨first, stored, isListed⟩, stored]

/-! ### Two accounts, one certificate -/

/-- Alice and Bob with the same certificate. -/
def sharedCertificate : AccountStore :=
  ((⟨.ascii, ∅⟩ : AccountStore).addFingerprint "alice" "f00d").addFingerprint "bob" "f00d"

theorem sharedCertificate_run : accountMachine.Reachable sharedCertificate := by
  have empty : accountMachine.Reachable ⟨.ascii, ∅⟩ := .start (show accountMachine.start ⟨.ascii, ∅⟩ from rfl)
  have alice : accountMachine.Reachable ((⟨.ascii, ∅⟩ : AccountStore).addFingerprint "alice" "f00d") :=
    empty.step (e := .addFingerprint "alice" "f00d") trivial rfl
  exact alice.step (e := .addFingerprint "bob" "f00d") trivial rfl

theorem findsCertificate_always_unnamed : sharedCertificate.FindsCertificate "" "f00d" :=
  (findsCertificate_always_iff sharedCertificate_run "" "f00d").mpr (.inl rfl) sharedCertificate (.refl _)

/-- Alice's certificate is refused because it is Bob's as well. -/
theorem shared_certificate_refused :
    ¬ ∀ store, accountMachine.Reachable store → ∀ name fingerprint order, store.SameAccounts order →
      order.FindsCertificate name fingerprint := by
  intro finds
  obtain ⟨named, -⟩ := finds _ sharedCertificate_run "alice" "f00d" _ (.refl _)
  have refused : sharedCertificate.verifyFingerprint "alice" "f00d" = none := by decide
  have found := (named (by decide) "alice").mpr ⟨⟨"alice", none, none, ["f00d"]⟩, by decide, by decide, rfl⟩
  rw [refused] at found
  cases found

end AccountStore

end Ferrixd
