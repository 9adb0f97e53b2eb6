import Ferrixd.Reload

/-! # What a configuration defines

The accounts and operators of a configuration, read off its entries without running through them: several
entries of one name make one account, the later hash and keys count, the fingerprints add up. -/

namespace Ferrixd

/-- What one entry of a configuration gives an account. -/
structure Credentials where
  name : String
  passwordHash : Option String
  scram : Option ScramCreds
  fingerprints : List String

namespace Credentials

/-- An entry that is only a name makes no account. -/
def given (entry : Credentials) : Bool :=
  entry.passwordHash.isSome || entry.scram.isSome || !entry.fingerprints.isEmpty

/-- Two entries of one name. -/
def merge (first second : Credentials) : Credentials :=
  { name := first.name
    passwordHash := second.passwordHash.or first.passwordHash
    scram := second.scram.or first.scram
    fingerprints := first.fingerprints ++ second.fingerprints }

/-- The account that entries of one name make. -/
def account (entries : List Credentials) : Option Account :=
  entries.head?.map fun first =>
    { display := first.name
      passwordHash := (entries.filterMap Credentials.passwordHash).getLast?
      scram := (entries.filterMap Credentials.scram).getLast?
      fingerprints := entries.flatMap Credentials.fingerprints }

/-- The entry is for the account that is kept under `key`. -/
def concerns (mapping : CaseMapping) (key : String) (entry : Credentials) : Bool :=
  entry.given && mapping.fold entry.name == key

/-- The account that the entries define under `key`. -/
def defined (mapping : CaseMapping) (entries : List Credentials) (key : String) : Option Account :=
  account (entries.filter (concerns mapping key))

end Credentials

/-- The account with what an entry gives it. -/
def Account.extend (account : Account) (entry : Credentials) : Account :=
  { account with
    passwordHash := entry.passwordHash.or account.passwordHash
    scram := entry.scram.or account.scram
    fingerprints := account.fingerprints ++ entry.fingerprints }

/-- The store with what an entry gives the account of its name. -/
def AccountStore.credit (store : AccountStore) (entry : Credentials) : AccountStore :=
  if entry.given then store.entry entry.name fun account => account.extend entry else store

/-- What the password of an account gives: a stored hash, or a fresh one together with SCRAM keys. -/
def AccountConfig.secrets (hashing : Hashing) (account : AccountConfig) :
    Draw String Nat (Option String × Option ScramCreds) := fun drawn =>
  match account.passwordHash, account.password with
  | some hash, _ => .ok ((some hash, none), drawn)
  | none, some password => do
    let (hash, drawn) ← hashing.hashPasswordRandom password drawn
    let (salt, drawn) ← hashing.randomSaltBytes drawn
    return ((some hash, some (hashing.derive password salt scramIterations)), drawn)
  | none, none => .ok ((none, none), drawn)

/-- What an account of the configuration gives.  A SCRAM token counts before keys from the password. -/
def AccountConfig.credentials (hashing : Hashing) (account : AccountConfig) : Draw String Nat Credentials :=
  fun drawn => (account.secrets hashing drawn).map fun (secrets, rest) =>
    ({ name := account.name
       passwordHash := secrets.1
       scram := (account.scram.bind (ScramCreds.decode hashing.crypto)).or secrets.2
       fingerprints := account.fingerprints.map hashing.toLowercase }, rest)

/-- What an operator of the configuration gives. -/
structure Grant where
  credentials : Credentials
  hosts : List String

def OperatorConfig.grant (hashing : Hashing) (oper : OperatorConfig) : Draw String Nat Grant :=
  fun drawn => (operatorHash hashing oper drawn).map fun (hash, rest) =>
    ({ credentials := { name := oper.name, passwordHash := some hash, scram := none, fingerprints := [] }
       hosts := oper.hosts }, rest)

/-- The host masks of an operator: those of the last entry of exactly this name. -/
def Grant.hostsOf (grants : List Grant) (name : String) : Option (List String) :=
  ((grants.filter fun grant => grant.credentials.name == name).getLast?).map Grant.hosts

theorem Grant.hostsOf_concat (grants : List Grant) (last : Grant) (name : String) :
    Grant.hostsOf (grants ++ [last]) name =
      if name = last.credentials.name then some last.hosts else Grant.hostsOf grants name := by
  rw [Grant.hostsOf, List.filter_append]
  by_cases same : name = last.credentials.name
  · rw [if_pos same, List.filter_cons_of_pos (by rw [same, beq_self_eq_true]), List.filter_nil, List.getLast?_concat]
    rfl
  · rw [if_neg same, List.filter_cons_of_neg (by simpa using Ne.symm same), List.filter_nil, List.append_nil]
    rfl

/-- Whether an account of the configuration is only a name. -/
def AccountConfig.isBare (account : AccountConfig) : Bool :=
  account.password.isNone && account.passwordHash.isNone && account.scram.isNone && account.fingerprints.isEmpty

/-- The account a persisted record restores. -/
def AccountRecord.account (record : AccountRecord) : Account :=
  { display := record.display, passwordHash := record.passwordHash, scram := record.scram, fingerprints := [] }

/-- The persisted account that is kept under `key`. -/
def AccountRecord.restored (mapping : CaseMapping) (records : List AccountRecord) (key : String) : Option Account :=
  (records.find? fun record => mapping.fold record.display == key).map AccountRecord.account

theorem Account.extend_extend (account : Account) (first second : Credentials) :
    (account.extend first).extend second = account.extend (first.merge second) := by
  simp only [Account.extend, Credentials.merge, Option.or_assoc, List.append_assoc]

theorem AccountStore.entry_entry (store : AccountStore) (name : String) (first second : Account → Account) :
    (store.entry name first).entry name second = store.entry name fun account => second (first account) := by
  simp only [AccountStore.entry, AList.lookup_insert, Option.getD_some, AList.insert_insert]

namespace Credentials

theorem given_eq_false {entry : Credentials} :
    entry.given = false ↔ entry.passwordHash = none ∧ entry.scram = none ∧ entry.fingerprints = [] := by
  simp [given, and_assoc]

theorem given_merge (first second : Credentials) : (first.merge second).given = (first.given || second.given) := by
  rw [Bool.eq_iff_iff, ← not_iff_not]
  simp only [Bool.not_eq_true, Bool.or_eq_false_iff, given_eq_false, merge, Option.or_eq_none_iff,
    List.append_eq_nil_iff]
  tauto

theorem merge_of_not_given {first second : Credentials} (bare : second.given = false) : first.merge second = first := by
  obtain ⟨hash, scram, fingerprints⟩ := given_eq_false.mp bare
  simp only [merge, hash, scram, fingerprints, Option.none_or, List.append_nil]

theorem merge_of_first_not_given {first second : Credentials} (named : first.name = second.name)
    (bare : first.given = false) : first.merge second = second := by
  obtain ⟨hash, scram, fingerprints⟩ := given_eq_false.mp bare
  simp only [merge, named, hash, scram, fingerprints, Option.or_none, List.nil_append]

theorem getLast?_filterMap_concat {γ : Type} (read : Credentials → Option γ) (entries : List Credentials)
    (last : Credentials) :
    ((entries ++ [last]).filterMap read).getLast? = (read last).or (entries.filterMap read).getLast? := by
  rw [List.filterMap_append, List.getLast?_append]
  cases found : read last with
  | none => rw [List.filterMap_cons_none found]; rfl
  | some value => rw [List.filterMap_cons_some found]; rfl

/-- An account that gets one more entry. -/
theorem account_concat (entries : List Credentials) (last : Credentials) :
    account (entries ++ [last]) = some (((account entries).getD (Account.blank last.name)).extend last) := by
  simp only [account, getLast?_filterMap_concat, List.flatMap_append, List.flatMap_singleton, Account.extend]
  cases entries with
  | nil => rfl
  | cons first entries =>
    simp only [List.cons_append, List.head?_cons, Option.map_some, Option.getD_some]

/-- One more entry changes the account of its own name, and no other. -/
theorem defined_concat (mapping : CaseMapping) (entries : List Credentials) (last : Credentials) (key : String) :
    defined mapping (entries ++ [last]) key =
      if concerns mapping key last then
        some (((defined mapping entries key).getD (Account.blank last.name)).extend last)
      else defined mapping entries key := by
  rw [defined, List.filter_append]
  split
  · rename_i concerned
    rw [List.filter_cons_of_pos concerned, List.filter_nil, account_concat]
    rfl
  · rename_i other
    rw [List.filter_cons_of_neg other, List.filter_nil, List.append_nil]
    rfl

theorem defined_eq_none {mapping : CaseMapping} {entries : List Credentials} {key : String} :
    defined mapping entries key = none ↔ ∀ entry ∈ entries, mapping.fold entry.name = key → entry.given = false := by
  simp only [defined, account, Option.map_eq_none_iff, List.head?_eq_none_iff, List.filter_eq_nil_iff, concerns,
    Bool.and_eq_true, beq_iff_eq, not_and', Bool.not_eq_true]

end Credentials

namespace AccountStore

/-- The store keeps exactly the accounts that the entries define. -/
def Holds (store : AccountStore) (entries : List Credentials) : Prop :=
  ∀ key, store.accounts.lookup key = Credentials.defined store.casemapping entries key

variable {store : AccountStore}

@[simp] theorem casemapping_credit (entry : Credentials) : (store.credit entry).casemapping = store.casemapping := by
  rw [credit]
  split <;> rfl

theorem credit_of_not_given {entry : Credentials} (bare : entry.given = false) : store.credit entry = store := by
  rw [credit, bare]
  rfl

/-- Two entries of one name are as good as one. -/
theorem credit_credit {first second : Credentials} (named : first.name = second.name) :
    (store.credit first).credit second = store.credit (first.merge second) := by
  cases bare : second.given with
  | false => rw [credit_of_not_given bare, Credentials.merge_of_not_given bare]
  | true =>
    cases blank : first.given with
    | false => rw [credit_of_not_given blank, Credentials.merge_of_first_not_given named blank]
    | true =>
      have merged : (first.merge second).given = true := by
        rw [Credentials.given_merge, blank, Bool.true_or]
      simp only [credit, blank, bare, merged, if_true, ← named, entry_entry, Account.extend_extend]
      rfl

theorem Holds.credit {entries : List Credentials} (holds : store.Holds entries) (entry : Credentials) :
    (store.credit entry).Holds (entries ++ [entry]) := by
  intro key
  rw [casemapping_credit, Credentials.defined_concat, ← holds key, AccountStore.credit, Credentials.concerns]
  cases bare : entry.given with
  | false => simp
  | true =>
    simp only [if_true, Bool.true_and, beq_iff_eq]
    rw [lookup_entry]
    by_cases same : key = store.casemapping.fold entry.name
    · rw [if_pos same, if_pos same.symm]
    · rw [if_neg same, if_neg (Ne.symm same)]

theorem holds_clear : store.clear.Holds [] :=
  fun _ => rfl

/-- Restoring fills in the names that are missing. -/
theorem lookup_restoreAll (records : List AccountRecord) (store : AccountStore) (key : String) :
    (records.foldl
      (fun store record => store.restoreIfAbsent record.display record.passwordHash record.scram) store).accounts.lookup
      key = (store.accounts.lookup key).or (AccountRecord.restored store.casemapping records key) := by
  induction records generalizing store with
  | nil => exact Option.or_none.symm
  | cons record records ih =>
    rw [List.foldl_cons, ih, lookup_restoreIfAbsent, casemapping_restoreIfAbsent, Option.or_assoc]
    congr 1
    rw [AccountRecord.restored, AccountRecord.restored, List.find?_cons]
    by_cases same : key = store.casemapping.fold record.display
    · rw [if_pos same, beq_iff_eq.mpr same.symm]
      rfl
    · rw [if_neg same, beq_eq_false_iff_ne.mpr (Ne.symm same)]
      rfl

@[simp] theorem casemapping_restoreAll (records : List AccountRecord) (store : AccountStore) :
    (records.foldl
      (fun store record => store.restoreIfAbsent record.display record.passwordHash record.scram)
      store).casemapping = store.casemapping := by
  induction records generalizing store with
  | nil => rfl
  | cons record records ih => rw [List.foldl_cons, ih, casemapping_restoreIfAbsent]

end AccountStore

end Ferrixd
