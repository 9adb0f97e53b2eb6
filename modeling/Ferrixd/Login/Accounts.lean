import Ferrixd.Data.Table
import Ferrixd.Text

/-! # Accounts

The credentials a client may log in with: an Argon2 hash, SCRAM keys, certificate fingerprints. -/

namespace Ferrixd

/-- The cryptographic libraries: `argon2 hash password` checks a password against a PHC string. -/
structure Crypto where
  argon2 : String → String → Bool
  hmac : Bytes → Bytes → Bytes
  sha256 : Bytes → Bytes
  encodeBase64 : Bytes → String
  decodeBase64 : String → Option Bytes

/-- Stored SCRAM credentials. -/
structure ScramCreds where
  salt : Bytes
  iterations : UInt32
  storedKey : Bytes
  serverKey : Bytes
  deriving DecidableEq

structure Account where
  display : String
  passwordHash : Option String
  scram : Option ScramCreds
  fingerprints : List String
  deriving DecidableEq

/-- An account that nobody can log in to yet. -/
def Account.blank (name : String) : Account :=
  { display := name, passwordHash := none, scram := none, fingerprints := [] }

/-- Parse `<iterations>:<b64 salt>:<b64 stored_key>:<b64 server_key>`. -/
def ScramCreds.decode (crypto : Crypto) (token : String) : Option ScramCreds :=
  match token.splitOn ":" with
  | [iterations, salt, storedKey, serverKey] => do
    let iterations ← parseU32 (trim iterations)
    let salt ← crypto.decodeBase64 (trim salt)
    let storedKey ← crypto.decodeBase64 (trim storedKey)
    let serverKey ← crypto.decodeBase64 (trim serverKey)
    if storedKey.length ≠ 32 ∨ serverKey.length ≠ 32 ∨ iterations = 0 ∨ salt = [] then none
    else some { salt, iterations, storedKey, serverKey }
  | _ => none

/-- The accounts, by folded name. -/
structure AccountStore where
  casemapping : CaseMapping
  accounts : Table String Account

namespace AccountStore

variable (crypto : Crypto) (store : AccountStore)

/-- `entry(key).and_modify(change).or_insert_with(..)` -/
def entry (name : String) (change : Account → Account) : AccountStore :=
  let key := store.casemapping.fold name
  { store with
    accounts := store.accounts.insert key (change ((store.accounts.lookup key).getD (Account.blank name))) }

def upsertPassword (name passwordHash : String) : AccountStore :=
  store.entry name fun account => { account with passwordHash := some passwordHash }

def upsertScram (name : String) (creds : ScramCreds) : AccountStore :=
  store.entry name fun account => { account with scram := some creds }

/-- What `set_password` stores once it has the hash and the keys. -/
def setCredentials (name passwordHash : String) (creds : ScramCreds) : AccountStore :=
  store.entry name fun account => { account with passwordHash := some passwordHash, scram := some creds }

def addFingerprint (name fingerprint : String) : AccountStore :=
  store.entry name fun account => { account with fingerprints := account.fingerprints ++ [fingerprint] }

/-- Restore a persisted account, unless the name exists. -/
def restoreIfAbsent (display : String) (passwordHash : Option String) (scram : Option ScramCreds) : AccountStore :=
  let key := store.casemapping.fold display
  if key ∈ store.accounts then store
  else { store with accounts := store.accounts.insert key { display, passwordHash, scram, fingerprints := [] } }

def clear : AccountStore :=
  { store with accounts := ∅ }

/-- Verify a password; the canonical name of the account is returned. -/
def verifyPassword (name password : String) : Option String := do
  let account ← store.accounts.lookup (store.casemapping.fold name)
  let hash ← account.passwordHash
  if crypto.argon2 hash password then some account.display else none

/-- Verify a certificate fingerprint.  A name that is asked for must be the name of the first account
that allows the fingerprint. -/
def verifyFingerprint (name fingerprint : String) : Option String :=
  match store.accounts.findVal? fun account => account.fingerprints.contains fingerprint with
  | none => none
  | some account =>
    if name ≠ "" ∧ store.casemapping.fold name ≠ store.casemapping.fold account.display then none
    else some account.display

/-- The canonical name and the SCRAM credentials of an account. -/
def scramLookup (name : String) : Option (String × ScramCreds) := do
  let account ← store.accounts.lookup (store.casemapping.fold name)
  let creds ← account.scram
  return (account.display, creds)

variable {crypto} {store}

@[simp] theorem casemapping_entry (name : String) (change : Account → Account) :
    (store.entry name change).casemapping = store.casemapping :=
  rfl

theorem lookup_entry (name key : String) (change : Account → Account) :
    (store.entry name change).accounts.lookup key =
      if key = store.casemapping.fold name then
        some (change ((store.accounts.lookup key).getD (Account.blank name)))
      else store.accounts.lookup key := by
  simp only [entry]
  rw [Table.lookup_insert_if]
  split
  · rename_i same
    rw [same]
  · rfl

@[simp] theorem lookup_clear (key : String) : store.clear.accounts.lookup key = none :=
  rfl

@[simp] theorem casemapping_restoreIfAbsent (display : String) (passwordHash : Option String)
    (scram : Option ScramCreds) :
    (store.restoreIfAbsent display passwordHash scram).casemapping = store.casemapping := by
  rw [restoreIfAbsent]
  split <;> rfl

theorem lookup_restoreIfAbsent (display key : String) (passwordHash : Option String) (scram : Option ScramCreds) :
    (store.restoreIfAbsent display passwordHash scram).accounts.lookup key =
      (store.accounts.lookup key).or
        (if key = store.casemapping.fold display then
          some { display, passwordHash, scram, fingerprints := [] } else none) := by
  rw [restoreIfAbsent]
  split
  · rename_i present
    obtain ⟨account, found⟩ := Option.isSome_iff_exists.mp (AList.lookup_isSome.mpr present)
    split
    · rename_i same
      rw [same, found, Option.some_or]
    · rw [Option.or_none]
  · rename_i absent
    rw [Table.lookup_insert_if]
    split
    · rename_i same
      rw [same, AList.lookup_eq_none.mpr absent, Option.none_or]
    · rw [Option.or_none]

theorem verifyPassword_some {name password display : String}
    (verified : store.verifyPassword crypto name password = some display) :
    ∃ account hash, store.accounts.lookup (store.casemapping.fold name) = some account ∧
      account.passwordHash = some hash ∧ crypto.argon2 hash password = true ∧ account.display = display := by
  simp only [verifyPassword, Option.bind_eq_bind, Option.bind_eq_some_iff] at verified
  obtain ⟨account, found, hash, hashed, checked⟩ := verified
  split at checked
  · rename_i fits
    cases checked
    exact ⟨account, hash, found, hashed, fits, rfl⟩
  · cases checked

theorem verifyFingerprint_some {name fingerprint display : String}
    (verified : store.verifyFingerprint name fingerprint = some display) :
    ∃ key account, store.accounts.lookup key = some account ∧ fingerprint ∈ account.fingerprints ∧
      account.display = display := by
  rw [verifyFingerprint] at verified
  split at verified
  · cases verified
  · rename_i account found
    obtain ⟨fits, key, stored⟩ := Table.findVal?_some found
    split at verified
    · cases verified
    · cases verified
      exact ⟨key, account, stored, List.contains_iff_mem.mp fits, rfl⟩

theorem scramLookup_some {name display : String} {creds : ScramCreds}
    (found : store.scramLookup name = some (display, creds)) :
    ∃ account, store.accounts.lookup (store.casemapping.fold name) = some account ∧
      account.scram = some creds ∧ account.display = display := by
  simp only [scramLookup, Option.bind_eq_bind, Option.bind_eq_some_iff] at found
  obtain ⟨account, stored, has, capable, same⟩ := found
  cases same
  exact ⟨account, stored, capable, rfl⟩

end AccountStore

end Ferrixd
