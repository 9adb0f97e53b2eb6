import Ferrixd.Reload.Credentials

/-! # The loops of a reload

What one entry of the configuration does to the server, and from it what the loops over the accounts and the
operators leave behind, also where they stop. -/

namespace Ferrixd

namespace AccountStore

variable (store : AccountStore) (name : String)

theorem upsertPassword_eq_credit (hash : String) :
    store.upsertPassword name hash =
      store.credit { name, passwordHash := some hash, scram := none, fingerprints := [] } := by
  simp [upsertPassword, credit, Credentials.given, Account.extend]

theorem upsertScram_eq_credit (creds : ScramCreds) :
    store.upsertScram name creds =
      store.credit { name, passwordHash := none, scram := some creds, fingerprints := [] } := by
  simp [upsertScram, credit, Credentials.given, Account.extend]

theorem setCredentials_eq_credit (hash : String) (creds : ScramCreds) :
    store.setCredentials name hash creds =
      store.credit { name, passwordHash := some hash, scram := some creds, fingerprints := [] } := by
  simp [setCredentials, credit, Credentials.given, Account.extend]

theorem addFingerprint_eq_credit (fingerprint : String) :
    store.addFingerprint name fingerprint =
      store.credit { name, passwordHash := none, scram := none, fingerprints := [fingerprint] } := by
  simp [addFingerprint, credit, Credentials.given, Account.extend]

end AccountStore

/-! ## One entry -/

section Entry

variable {hashing : Hashing} {daemon : Daemon}

theorem get_run : (get : Rehash Daemon) daemon = .ok daemon daemon :=
  rfl

theorem draw_ok {α : Type} {source : Draw String Nat α} {value : α} {rest : Nat}
    (drawn : source daemon.drawn = .ok (value, rest)) :
    draw source daemon = .ok value { daemon with drawn := rest } := by
  simp only [draw, bind, EStateM.bind, get_run, drawn]
  rfl

theorem draw_error {α : Type} {source : Draw String Nat α} {failure : String}
    (drawn : source daemon.drawn = .error failure) : draw source daemon = .error failure daemon := by
  simp only [draw, bind, EStateM.bind, get_run, drawn]
  rfl

theorem withAccounts_run (change : AccountStore → AccountStore) :
    withAccounts change daemon = .ok () { daemon with accounts := change daemon.accounts } :=
  rfl

theorem modify_run (change : Daemon → Daemon) : (modify change : Rehash PUnit) daemon = .ok ⟨⟩ (change daemon) :=
  rfl

theorem bind_run {α β : Type} {first : Rehash α} {next : α → Rehash β} {value : α} {daemon' : Daemon}
    (ran : first daemon = .ok value daemon') : (first >>= next) daemon = next value daemon' := by
  simp only [bind, EStateM.bind, ran]

theorem bind_error {α β : Type} {first : Rehash α} {next : α → Rehash β} {failure : String} {daemon' : Daemon}
    (ran : first daemon = .error failure daemon') : (first >>= next) daemon = .error failure daemon' := by
  simp only [bind, EStateM.bind, ran]

theorem setPassword_ok {name password hash : String} {salt : Bytes} {middle rest : Nat}
    (hashed : hashing.hashPasswordRandom password daemon.drawn = .ok (hash, middle))
    (salted : hashing.randomSaltBytes middle = .ok (salt, rest)) :
    setPassword hashing name password daemon =
      .ok () { daemon with
        accounts := daemon.accounts.setCredentials name hash (hashing.derive password salt scramIterations)
        drawn := rest } := by
  rw [setPassword, bind_run (draw_ok hashed), bind_run (draw_ok salted), withAccounts_run]

theorem applyPassword_ok {account : AccountConfig} {secrets : Option String × Option ScramCreds} {rest : Nat}
    (resolved : account.secrets hashing daemon.drawn = .ok (secrets, rest)) :
    applyPassword hashing account daemon =
      .ok () { daemon with
        accounts := daemon.accounts.credit
          { name := account.name, passwordHash := secrets.1, scram := secrets.2, fingerprints := [] }
        drawn := rest } := by
  rw [AccountConfig.secrets] at resolved
  rw [applyPassword]
  -- a stored hash wins over a plain password, and without either nothing is drawn
  cases hash : account.passwordHash with
  | some hash =>
    simp only [hash] at resolved ⊢
    cases resolved
    rw [withAccounts_run, AccountStore.upsertPassword_eq_credit]
  | none =>
    cases plain : account.password with
    | none =>
      simp only [hash, plain] at resolved ⊢
      cases resolved
      rw [AccountStore.credit_of_not_given rfl]
      rfl
    | some password =>
      simp only [hash, plain] at resolved ⊢
      cases hashed : hashing.hashPasswordRandom password daemon.drawn with
      | error failure =>
        rw [hashed] at resolved
        cases resolved
      | ok result =>
        obtain ⟨hash, middle⟩ := result
        rw [hashed] at resolved
        dsimp only [bind, Except.bind] at resolved
        cases salted : hashing.randomSaltBytes middle with
        | error failure =>
          rw [salted] at resolved
          cases resolved
        | ok result =>
          obtain ⟨salt, last⟩ := result
          rw [salted] at resolved
          cases resolved
          rw [setPassword_ok hashed salted, AccountStore.setCredentials_eq_credit]

/-- A password that cannot be hashed stores nothing. -/
theorem applyPassword_error {account : AccountConfig} {failure : String}
    (resolved : account.secrets hashing daemon.drawn = .error failure) :
    ∃ rest, applyPassword hashing account daemon = .error failure { daemon with drawn := rest } := by
  rw [AccountConfig.secrets] at resolved
  rw [applyPassword]
  cases hash : account.passwordHash with
  | some hash =>
    simp only [hash] at resolved
    cases resolved
  | none =>
    cases plain : account.password with
    | none =>
      simp only [hash, plain] at resolved
      cases resolved
    | some password =>
      simp only [hash, plain] at resolved ⊢
      rw [setPassword]
      cases hashed : hashing.hashPasswordRandom password daemon.drawn with
      | error reason =>
        rw [hashed] at resolved
        cases resolved
        exact ⟨daemon.drawn, bind_error (draw_error hashed)⟩
      | ok result =>
        obtain ⟨hash, middle⟩ := result
        rw [hashed] at resolved
        dsimp only [bind, Except.bind] at resolved
        cases salted : hashing.randomSaltBytes middle with
        | error reason =>
          rw [salted] at resolved
          cases resolved
          -- what was drawn for the hash is gone, though no account has changed
          refine ⟨middle, ?_⟩
          rw [bind_run (draw_ok hashed)]
          exact bind_error (draw_error salted)
        | ok result =>
          rw [salted] at resolved
          cases resolved

theorem applyScram_ok {account : AccountConfig}
    (decodes : ∀ token, account.scram = some token → (ScramCreds.decode hashing.crypto token).isSome) :
    applyScram hashing account daemon =
      .ok () { daemon with
        accounts := daemon.accounts.credit
          { name := account.name, passwordHash := none
            scram := account.scram.bind (ScramCreds.decode hashing.crypto), fingerprints := [] } } := by
  rw [applyScram]
  cases written : account.scram with
  | none =>
    rw [AccountStore.credit_of_not_given rfl]
    rfl
  | some token =>
    obtain ⟨creds, decoded⟩ := Option.isSome_iff_exists.mp (decodes token written)
    simp only [decoded, Option.bind_some]
    rw [withAccounts_run, AccountStore.upsertScram_eq_credit]

theorem applyFingerprints (account : AccountConfig) (daemon : Daemon) :
    (account.fingerprints.forM fun fingerprint =>
      withAccounts fun store => store.addFingerprint account.name (hashing.toLowercase fingerprint)) daemon =
      .ok () { daemon with
        accounts := daemon.accounts.credit
          { name := account.name, passwordHash := none, scram := none
            fingerprints := account.fingerprints.map hashing.toLowercase } } := by
  induction account.fingerprints generalizing daemon with
  | nil =>
    rw [AccountStore.credit_of_not_given rfl]
    rfl
  | cons fingerprint fingerprints ih =>
    rw [List.forM, bind_run (withAccounts_run _), ih, AccountStore.addFingerprint_eq_credit]
    dsimp only
    rw [AccountStore.credit_credit (by rfl)]
    rfl

/-- The account gets what its entry gives, and nothing else changes. -/
theorem applyAccount_ok {account : AccountConfig} {given : Credentials} {rest : Nat}
    (decodes : ∀ token, account.scram = some token → (ScramCreds.decode hashing.crypto token).isSome)
    (resolved : account.credentials hashing daemon.drawn = .ok (given, rest)) :
    applyAccount hashing account daemon =
      .ok () { daemon with accounts := daemon.accounts.credit given, drawn := rest } := by
  rw [AccountConfig.credentials] at resolved
  cases secret : account.secrets hashing daemon.drawn with
  | error failure =>
    rw [secret] at resolved
    cases resolved
  | ok result =>
    obtain ⟨secrets, last⟩ := result
    rw [secret] at resolved
    cases resolved
    rw [applyAccount, bind_run (applyPassword_ok secret), bind_run (applyScram_ok decodes), applyFingerprints]
    dsimp only
    rw [AccountStore.credit_credit (by rfl), AccountStore.credit_credit (by rfl)]
    simp only [Credentials.merge, Option.none_or, List.nil_append]

theorem applyAccount_error {account : AccountConfig} {failure : String}
    (resolved : account.credentials hashing daemon.drawn = .error failure) :
    ∃ rest, applyAccount hashing account daemon = .error failure { daemon with drawn := rest } := by
  rw [AccountConfig.credentials] at resolved
  cases secret : account.secrets hashing daemon.drawn with
  | ok result =>
    rw [secret] at resolved
    cases resolved
  | error reason =>
    rw [secret] at resolved
    cases resolved
    obtain ⟨rest, stopped⟩ := applyPassword_error secret
    exact ⟨rest, bind_error stopped⟩

theorem applyOperator_ok {oper : OperatorConfig} {grant : Grant} {rest : Nat}
    (resolved : oper.grant hashing daemon.drawn = .ok (grant, rest)) :
    applyOperator hashing oper daemon =
      .ok () { daemon with
        opers := daemon.opers.credit grant.credentials
        operHosts := daemon.operHosts.insert grant.credentials.name grant.hosts
        drawn := rest } := by
  rw [OperatorConfig.grant] at resolved
  cases hashed : operatorHash hashing oper daemon.drawn with
  | error failure =>
    rw [hashed] at resolved
    cases resolved
  | ok result =>
    rw [hashed] at resolved
    cases resolved
    rw [applyOperator, bind_run (draw_ok hashed), ← AccountStore.upsertPassword_eq_credit]
    rfl

theorem applyOperator_error {oper : OperatorConfig} {failure : String}
    (resolved : oper.grant hashing daemon.drawn = .error failure) :
    applyOperator hashing oper daemon = .error failure daemon := by
  rw [OperatorConfig.grant] at resolved
  cases hashed : operatorHash hashing oper daemon.drawn with
  | ok result =>
    rw [hashed] at resolved
    cases resolved
  | error reason =>
    rw [hashed] at resolved
    cases resolved
    exact bind_error (draw_error hashed)

end Entry

/-! ## The two loops -/

section Loops

variable {hashing : Hashing} {start : Daemon}

/-- The accounts of `entries` and no other, and what else was there. -/
structure Seeded (start : Daemon) (entries : List Credentials) (drawn : Nat) (daemon : Daemon) : Prop where
  drawn : daemon.drawn = drawn
  mapping : daemon.accounts.casemapping = start.accounts.casemapping
  holds : daemon.accounts.Holds entries
  frame : daemon = { start with accounts := daemon.accounts, drawn := daemon.drawn }

/-- The operators of `grants` and no other, and what else was there. -/
structure Appointed (start : Daemon) (grants : List Grant) (drawn : Nat) (daemon : Daemon) : Prop where
  drawn : daemon.drawn = drawn
  mapping : daemon.opers.casemapping = start.opers.casemapping
  holds : daemon.opers.Holds (grants.map Grant.credentials)
  hosts : ∀ name, daemon.operHosts.lookup name = Grant.hostsOf grants name
  frame : daemon = { start with opers := daemon.opers, operHosts := daemon.operHosts, drawn := daemon.drawn }

theorem follows_account {account : AccountConfig}
    (decodes : ∀ token, account.scram = some token → (ScramCreds.decode hashing.crypto token).isSome) :
    StepFollows (applyAccount hashing) (AccountConfig.credentials hashing) (Seeded start) account := by
  constructor
  · intro done source daemon given rest seeded resolved
    rw [← seeded.drawn] at resolved
    refine ⟨_, applyAccount_ok decodes resolved, rfl, ?_, seeded.holds.credit given, ?_⟩
    · exact (AccountStore.casemapping_credit given).trans seeded.mapping
    · rw [seeded.frame]
  · intro done source daemon failure seeded resolved
    rw [← seeded.drawn] at resolved
    obtain ⟨rest, stopped⟩ := applyAccount_error resolved
    refine ⟨rest, _, stopped, rfl, seeded.mapping, seeded.holds, ?_⟩
    rw [seeded.frame]

theorem follows_operator (oper : OperatorConfig) :
    StepFollows (applyOperator hashing) (OperatorConfig.grant hashing) (Appointed start) oper := by
  constructor
  · intro done source daemon grant rest appointed resolved
    rw [← appointed.drawn] at resolved
    refine ⟨_, applyOperator_ok resolved, rfl, ?_, ?_, ?_, ?_⟩
    · exact (AccountStore.casemapping_credit grant.credentials).trans appointed.mapping
    · rw [List.map_append]
      exact appointed.holds.credit grant.credentials
    · intro name
      rw [Grant.hostsOf_concat, ← appointed.hosts name]
      exact Table.lookup_insert_if _ _ _ _
    · rw [appointed.frame]
  · intro done source daemon failure appointed resolved
    rw [← appointed.drawn] at resolved
    exact ⟨source, daemon, applyOperator_error resolved, appointed⟩

end Loops

end Ferrixd
