import Ferrixd.Reload.Loops

/-! # A reload as a whole

A REHASH that fails while it applies the configuration has already replaced what came before the failure. -/

namespace Ferrixd

/-- Nothing that a REHASH replaces is different. -/
structure Settings.Same (before after : Settings) : Prop where
  accounts : ∀ key, after.accounts.accounts.lookup key = before.accounts.accounts.lookup key
  opers : ∀ key, after.opers.accounts.lookup key = before.opers.accounts.lookup key
  operHosts : ∀ name, after.operHosts.lookup name = before.operHosts.lookup name
  serverBans : after.serverBans = before.serverBans
  motd : after.motd = before.motd
  clientPassword : after.clientPassword = before.clientPassword
  webirc : after.webirc = before.webirc
  linkConfigs : after.linkConfigs = before.linkConfigs

theorem Settings.Same.refl (settings : Settings) : settings.Same settings :=
  ⟨fun _ => rfl, fun _ => rfl, fun _ => rfl, rfl, rfl, rfl, rfl, rfl⟩

/-- The configuration has an account that is kept under `key`. -/
def Config.Defines (config : Config) (mapping : CaseMapping) (key : String) : Prop :=
  ∃ account ∈ config.accounts, mapping.fold account.name = key

/-- The settings are those of a configuration, and the persisted accounts under the names that it does not define. -/
structure Settings.Meets (settings : Settings) (around : Surroundings) (config : Config)
    (persisted : List AccountRecord) : Prop where
  accounts : ∃ given, List.Forall₂ (Gives (AccountConfig.credentials around.hashing)) config.accounts given ∧
    ∀ key, (config.Defines settings.accounts.casemapping key →
        settings.accounts.accounts.lookup key = Credentials.defined settings.accounts.casemapping given key) ∧
      (¬ config.Defines settings.accounts.casemapping key →
        settings.accounts.accounts.lookup key =
          AccountRecord.restored settings.accounts.casemapping persisted key)
  opers : ∃ grants, List.Forall₂ (Gives (OperatorConfig.grant around.hashing)) config.operators grants ∧
    settings.opers.Holds (grants.map Grant.credentials) ∧
    ∀ name, settings.operHosts.lookup name = Grant.hostsOf grants name
  serverBans : settings.serverBans = config.bans.map (BanConfig.toServerBan around.nowUnix)
  motd : settings.motd = config.server.motd
  clientPassword : settings.clientPassword = config.server.password
  webirc : settings.webirc = config.webirc
  linkConfigs : settings.linkConfigs = config.links

/-- All or nothing. -/
def Atomic (around : Surroundings) (daemon : Daemon) : Prop :=
  match rehash around daemon with
  | .error _ after => daemon.toSettings.Same after.toSettings
  | .ok _ after => ∀ staged, stage around daemon = .ok staged →
      after.toSettings.Meets around staged.1 (daemon.chanreg.getD [])

/-- A configuration that can be applied without harm.  Where an account cannot be used, the accounts before it
are what the server has already; where an operator cannot be used, all the accounts and the operators before
it are; otherwise no persisted account has the name of an account that is only a name. -/
def Harmless (hashing : Hashing) (daemon : Daemon) (config : Config) : Prop :=
  match survey (AccountConfig.credentials hashing) config.accounts daemon.drawn with
  | (given, .error _) => daemon.accounts.Holds given
  | (given, .ok drawn) =>
    match survey (OperatorConfig.grant hashing) config.operators drawn with
    | (grants, .error _) => daemon.accounts.Holds given ∧ daemon.opers.Holds (grants.map Grant.credentials) ∧
        ∀ name, daemon.operHosts.lookup name = Grant.hostsOf grants name
    | (_, .ok _) => ∀ record ∈ daemon.chanreg.getD [],
        config.Defines daemon.accounts.casemapping (daemon.accounts.casemapping.fold record.display) →
        ∃ account ∈ config.accounts, account.isBare = false ∧
          daemon.accounts.casemapping.fold account.name = daemon.accounts.casemapping.fold record.display

section Whole

variable {around : Surroundings} {hashing : Hashing} {nowUnix : UInt64} {daemon : Daemon} {config : Config}

theorem except_bind_ok {ε α β : Type} {first : Except ε α} {next : α → Except ε β} {result : β} :
    first >>= next = .ok result ↔ ∃ value, first = .ok value ∧ next value = .ok result := by
  cases first with
  | error failure =>
    constructor
    · intro ran
      cases ran
    · rintro ⟨value, ran, -⟩
      cases ran
  | ok value =>
    constructor
    · intro ran
      exact ⟨value, rfl, ran⟩
    · rintro ⟨other, same, ran⟩
      cases same
      exact ran

/-- Every SCRAM token of a configuration that was validated can be decoded. -/
theorem decodes_of_validate {crypto : Crypto} (valid : config.validate crypto = .ok ()) :
    ∀ account ∈ config.accounts, ∀ token, account.scram = some token → (ScramCreds.decode crypto token).isSome := by
  simp only [Config.validate, except_bind_ok] at valid
  obtain ⟨_, _, _, _, _, _, _, _, _, sound, _⟩ := valid
  have none_malformed : config.malformedScram crypto = none := by
    cases found : config.malformedScram crypto with
    | none => rfl
    | some account =>
      rw [found] at sound
      cases sound
  intro account member token written
  have fine := List.find?_eq_none.mp none_malformed account member
  rw [written] at fine
  simpa [← Option.isSome_iff_ne_none] using fine

theorem decodes_of_stage {staged : Config × Option Bytes × Bytes} (ready : stage around daemon = .ok staged) :
    ∀ account ∈ staged.1.accounts, ∀ token, account.scram = some token →
      (ScramCreds.decode around.hashing.crypto token).isSome := by
  simp only [stage, except_bind_ok] at ready
  obtain ⟨path, -, config, loaded, tls, -, client, -, same⟩ := ready
  cases same
  cases read : Config.load around path with
  | error failure =>
    rw [read] at loaded
    cases loaded
  | ok found =>
    rw [read] at loaded
    cases loaded
    rw [Config.load, except_bind_ok] at read
    obtain ⟨parsed, -, valid⟩ := read
    rw [except_bind_ok] at valid
    obtain ⟨_, valid, same⟩ := valid
    cases same
    exact decodes_of_validate valid

/-- The server as the loop over the accounts finds it. -/
def Daemon.withoutAccounts (daemon : Daemon) : Daemon :=
  { daemon with accounts := daemon.accounts.clear }

/-- The server as the loop over the operators finds it. -/
def Daemon.withoutOpers (daemon : Daemon) : Daemon :=
  { daemon with opers := daemon.opers.clear, operHosts := ∅ }

/-- What `apply_config` does once both loops have run through. -/
def Daemon.adopt (daemon : Daemon) (nowUnix : UInt64) (config : Config) : Daemon :=
  { daemon with
    serverBans := config.bans.map (BanConfig.toServerBan nowUnix)
    motd := config.server.motd
    clientPassword := config.server.password
    webirc := config.webirc
    linkConfigs := config.links
    accounts := (daemon.chanreg.getD []).foldl
      (fun store record => store.restoreIfAbsent record.display record.passwordHash record.scram) daemon.accounts }

theorem seeded_start (daemon : Daemon) : Seeded daemon [] daemon.drawn daemon.withoutAccounts :=
  ⟨rfl, rfl, AccountStore.holds_clear, rfl⟩

theorem appointed_start (daemon : Daemon) : Appointed daemon [] daemon.drawn daemon.withoutOpers :=
  ⟨rfl, rfl, AccountStore.holds_clear, fun _ => rfl, rfl⟩

variable (decodes : ∀ account ∈ config.accounts, ∀ token, account.scram = some token →
  (ScramCreds.decode hashing.crypto token).isSome)
include decodes

/-- An account cannot be used. -/
theorem applyConfig_stops_at_account {given : List Credentials} {failure : String}
    (surveyed : survey (AccountConfig.credentials hashing) config.accounts daemon.drawn = (given, .error failure)) :
    ∃ drawn after, applyConfig hashing nowUnix config daemon = .error failure after ∧ Seeded daemon given drawn after := by
  obtain ⟨drawn, after, stopped, seeded⟩ := forM_error
    (fun account member => follows_account (decodes account member)) (seeded_start daemon) surveyed
  refine ⟨drawn, after, ?_, seeded⟩
  rw [applyConfig, bind_run (withAccounts_run _)]
  exact bind_error stopped

/-- The accounts can be used, and an operator cannot. -/
theorem applyConfig_stops_at_operator {given : List Credentials} {grants : List Grant} {middle : Nat} {failure : String}
    (accounts : survey (AccountConfig.credentials hashing) config.accounts daemon.drawn = (given, .ok middle))
    (opers : survey (OperatorConfig.grant hashing) config.operators middle = (grants, .error failure)) :
    ∃ drawn seeded after, applyConfig hashing nowUnix config daemon = .error failure after ∧
      Seeded daemon given middle seeded ∧ Appointed seeded grants drawn after := by
  obtain ⟨seeded, ran, holds⟩ := forM_ok
    (fun account member => follows_account (decodes account member)) (seeded_start daemon) accounts
  have from_there := opers
  rw [← holds.drawn] at from_there
  obtain ⟨drawn, after, stopped, appointed⟩ := forM_error (fun oper _ => follows_operator oper)
    (appointed_start seeded) from_there
  refine ⟨drawn, seeded, after, ?_, holds, appointed⟩
  rw [applyConfig, bind_run (withAccounts_run _)]
  refine (bind_run ran).trans ((bind_run (modify_run _)).trans ?_)
  exact bind_error stopped

/-- Everything can be used. -/
theorem applyConfig_ok {given : List Credentials} {grants : List Grant} {middle last : Nat}
    (accounts : survey (AccountConfig.credentials hashing) config.accounts daemon.drawn = (given, .ok middle))
    (opers : survey (OperatorConfig.grant hashing) config.operators middle = (grants, .ok last)) :
    ∃ seeded appointed, applyConfig hashing nowUnix config daemon = .ok () (appointed.adopt nowUnix config) ∧
      Seeded daemon given middle seeded ∧ Appointed seeded grants last appointed := by
  obtain ⟨seeded, ran, holds⟩ := forM_ok
    (fun account member => follows_account (decodes account member)) (seeded_start daemon) accounts
  have from_there := opers
  rw [← holds.drawn] at from_there
  obtain ⟨appointed, finished, kept⟩ := forM_ok (fun oper _ => follows_operator oper)
    (appointed_start seeded) from_there
  refine ⟨seeded, appointed, ?_, holds, kept⟩
  rw [applyConfig, bind_run (withAccounts_run _)]
  refine (bind_run ran).trans ((bind_run (modify_run _)).trans ?_)
  exact bind_run finished

omit decodes

theorem rehash_refused {failure : String} (refused : stage around daemon = .error failure) :
    rehash around daemon = .error failure daemon := by
  simp only [rehash, bind, EStateM.bind, get_run, refused]
  rfl

theorem rehash_staged {staged : Config × Option Bytes × Bytes} (ready : stage around daemon = .ok staged) :
    rehash around daemon =
      (applyConfig around.hashing around.nowUnix staged.1 >>= fun _ => modify fun daemon => { daemon with
        tls := if daemon.tls.isSome then staged.2.1 else daemon.tls
        linkClientConfig := some staged.2.2 }) daemon := by
  simp only [rehash, bind, EStateM.bind, get_run, ready]
  rfl

theorem Seeded.lookup {given : List Credentials} {drawn : Nat} {after : Daemon}
    (seeded : Seeded daemon given drawn after) (key : String) :
    after.accounts.accounts.lookup key = Credentials.defined daemon.accounts.casemapping given key := by
  rw [seeded.holds key, seeded.mapping]

/-- What the loop over the accounts has left is what was there. -/
theorem Seeded.same_iff {given : List Credentials} {drawn : Nat} {after : Daemon}
    (seeded : Seeded daemon given drawn after) :
    daemon.toSettings.Same after.toSettings ↔ daemon.accounts.Holds given := by
  constructor
  · intro same key
    rw [← seeded.lookup key]
    exact (same.accounts key).symm
  · intro holds
    constructor
    · intro key
      exact (seeded.lookup key).trans (holds key).symm
    all_goals rw [seeded.frame]
    all_goals intros; rfl

theorem Appointed.lookup {grants : List Grant} {drawn : Nat} {after : Daemon}
    (appointed : Appointed daemon grants drawn after) (key : String) :
    after.opers.accounts.lookup key =
      Credentials.defined daemon.opers.casemapping (grants.map Grant.credentials) key := by
  rw [appointed.holds key, appointed.mapping]

/-- What both loops have left is what was there. -/
theorem Appointed.same_iff {given : List Credentials} {grants : List Grant} {middle drawn : Nat}
    {before after : Daemon} (seeded : Seeded daemon given middle before)
    (appointed : Appointed before grants drawn after) :
    daemon.toSettings.Same after.toSettings ↔
      daemon.accounts.Holds given ∧ daemon.opers.Holds (grants.map Grant.credentials) ∧
        ∀ name, daemon.operHosts.lookup name = Grant.hostsOf grants name := by
  -- each stage touches its own table only
  have untouched : after.accounts = before.accounts := by rw [appointed.frame]
  have mapping : before.opers = daemon.opers := by rw [seeded.frame]
  constructor
  · intro same
    refine ⟨?_, ?_, ?_⟩
    · intro key
      rw [← seeded.lookup key, ← untouched]
      exact (same.accounts key).symm
    · intro key
      rw [← mapping, ← appointed.lookup key, mapping]
      exact (same.opers key).symm
    · intro name
      rw [← appointed.hosts name]
      exact (same.operHosts name).symm
  · rintro ⟨accounts, opers, hosts⟩
    constructor
    · intro key
      rw [untouched]
      exact (seeded.lookup key).trans (accounts key).symm
    · intro key
      rw [appointed.lookup key, mapping]
      exact (opers key).symm
    · intro name
      exact (appointed.hosts name).trans (hosts name).symm
    all_goals rw [appointed.frame, seeded.frame]

/-- There is a hash wherever there is a password of either kind, and no derived keys without one. -/
theorem secrets_isSome {account : AccountConfig} {secrets : Option String × Option ScramCreds} {drawn rest : Nat}
    (resolved : account.secrets hashing drawn = .ok (secrets, rest)) :
    secrets.1.isSome = (account.passwordHash.isSome || account.password.isSome) ∧
      (secrets.2.isSome → secrets.1.isSome) := by
  rw [AccountConfig.secrets] at resolved
  cases hash : account.passwordHash with
  | some hash =>
    simp only [hash] at resolved
    cases resolved
    exact ⟨rfl, fun _ => rfl⟩
  | none =>
    cases plain : account.password with
    | none =>
      simp only [hash, plain] at resolved
      cases resolved
      exact ⟨rfl, id⟩
    | some password =>
      simp only [hash, plain, except_bind_ok] at resolved
      obtain ⟨hashed, -, salted, -, same⟩ := resolved
      cases same
      exact ⟨rfl, fun _ => rfl⟩

/-- An account of the configuration that is only a name gives nothing, and any other gives something. -/
theorem Gives.given_eq {account : AccountConfig} {entry : Credentials}
    (decodes : ∀ token, account.scram = some token → (ScramCreds.decode hashing.crypto token).isSome)
    (gives : Gives (AccountConfig.credentials hashing) account entry) :
    entry.name = account.name ∧ entry.given = !account.isBare := by
  obtain ⟨drawn, rest, resolved⟩ := gives
  rw [AccountConfig.credentials] at resolved
  cases secret : account.secrets hashing drawn with
  | error failure =>
    rw [secret] at resolved
    cases resolved
  | ok result =>
    obtain ⟨secrets, last⟩ := result
    rw [secret] at resolved
    cases resolved
    obtain ⟨hashed, derived⟩ := secrets_isSome secret
    have decoded : (account.scram.bind (ScramCreds.decode hashing.crypto)).isSome = account.scram.isSome := by
      cases written : account.scram with
      | none => rfl
      | some token => exact decodes token written
    refine ⟨rfl, ?_⟩
    simp only [Credentials.given, AccountConfig.isBare, Option.isSome_or, decoded, hashed, List.isEmpty_map]
    revert hashed derived
    cases account.passwordHash <;> cases account.password <;> cases account.scram <;> cases secrets.1 <;>
      cases secrets.2 <;> simp

/-- A configuration makes no account under a name exactly when its entries of that name are only names. -/
theorem defined_eq_none_iff {accounts : List AccountConfig} {given : List Credentials} (mapping : CaseMapping)
    (key : String) (decodes : ∀ account ∈ accounts, ∀ token, account.scram = some token →
      (ScramCreds.decode hashing.crypto token).isSome)
    (gives : List.Forall₂ (Gives (AccountConfig.credentials hashing)) accounts given) :
    Credentials.defined mapping given key = none ↔
      ∀ account ∈ accounts, mapping.fold account.name = key → account.isBare = true := by
  rw [Credentials.defined_eq_none]
  induction gives with
  | nil => simp
  | cons first rest ih =>
    obtain ⟨named, filled⟩ := first.given_eq (decodes _ List.mem_cons_self)
    rw [List.forall_mem_cons, List.forall_mem_cons, ih fun account member =>
      decodes account (List.mem_cons_of_mem _ member), named, filled, Bool.not_eq_false']

theorem restored_eq_none {mapping : CaseMapping} {records : List AccountRecord} {key : String} :
    AccountRecord.restored mapping records key = none ↔ ∀ record ∈ records, mapping.fold record.display ≠ key := by
  simp only [AccountRecord.restored, Option.map_eq_none_iff, List.find?_eq_none, beq_iff_eq, ne_eq]

/-- The adopted accounts: those of the configuration, and the persisted ones under the names that are left. -/
theorem lookup_adopt {given : List Credentials} {grants : List Grant} {middle last : Nat} {before after : Daemon}
    (seeded : Seeded daemon given middle before) (appointed : Appointed before grants last after) (key : String) :
    (after.adopt nowUnix config).accounts.accounts.lookup key =
      (Credentials.defined daemon.accounts.casemapping given key).or
        (AccountRecord.restored daemon.accounts.casemapping (daemon.chanreg.getD []) key) := by
  have untouched : after.accounts = before.accounts := by rw [appointed.frame]
  have records : after.chanreg = daemon.chanreg := by rw [appointed.frame, seeded.frame]
  rw [Daemon.adopt, AccountStore.lookup_restoreAll, untouched, seeded.lookup key, records, seeded.mapping]

theorem casemapping_adopt {given : List Credentials} {grants : List Grant} {middle last : Nat} {before after : Daemon}
    (seeded : Seeded daemon given middle before) (appointed : Appointed before grants last after) :
    (after.adopt nowUnix config).accounts.casemapping = daemon.accounts.casemapping := by
  have untouched : after.accounts = before.accounts := by rw [appointed.frame]
  rw [Daemon.adopt, AccountStore.casemapping_restoreAll, untouched, seeded.mapping]

/-- The adopted settings are the configured ones exactly when no persisted account slips in under the name of an
account that the configuration only names. -/
theorem adopt_meets_iff {given : List Credentials} {grants : List Grant} {middle last : Nat} {before after : Daemon}
    (decodes : ∀ account ∈ config.accounts, ∀ token, account.scram = some token →
      (ScramCreds.decode around.hashing.crypto token).isSome)
    (accounts : List.Forall₂ (Gives (AccountConfig.credentials around.hashing)) config.accounts given)
    (opers : List.Forall₂ (Gives (OperatorConfig.grant around.hashing)) config.operators grants)
    (seeded : Seeded daemon given middle before) (appointed : Appointed before grants last after) :
    (after.adopt around.nowUnix config).toSettings.Meets around config (daemon.chanreg.getD []) ↔
      ∀ record ∈ daemon.chanreg.getD [],
        config.Defines daemon.accounts.casemapping (daemon.accounts.casemapping.fold record.display) →
        ∃ account ∈ config.accounts, account.isBare = false ∧
          daemon.accounts.casemapping.fold account.name = daemon.accounts.casemapping.fold record.display := by
  have mapping : (after.adopt around.nowUnix config).accounts.casemapping = daemon.accounts.casemapping :=
    casemapping_adopt seeded appointed
  have lookup (key : String) := @lookup_adopt around.nowUnix daemon config _ _ _ _ _ _ seeded appointed key
  constructor
  · intro meets record member defines
    obtain ⟨other, gives, exactly⟩ := meets.accounts
    rw [mapping] at exactly
    by_contra bare
    push Not at bare
    have only_names : ∀ account ∈ config.accounts,
        daemon.accounts.casemapping.fold account.name = daemon.accounts.casemapping.fold record.display →
          account.isBare = true := by
      intro account listed named
      cases blank : account.isBare with
      | true => rfl
      | false => exact absurd named (bare account listed blank)
    -- the configuration defines the name and makes no account of it, so the record is what is found
    have configured := (defined_eq_none_iff _ _ decodes gives).mpr only_names
    have seeded_none := (defined_eq_none_iff _ _ decodes accounts).mpr only_names
    have found := (lookup _).symm.trans ((exactly _).1 defines)
    rw [configured, seeded_none, Option.none_or, restored_eq_none] at found
    exact found record member rfl
  · intro covered
    constructor
    · refine ⟨given, accounts, fun key => ?_⟩
      rw [mapping, lookup key]
      constructor
      · rintro ⟨account, listed, named⟩
        cases made : Credentials.defined daemon.accounts.casemapping given key with
        | some account => rfl
        | none =>
          rw [Option.none_or, restored_eq_none]
          intro record member same
          subst same
          obtain ⟨other, present, filled, shared⟩ := covered record member ⟨account, listed, named⟩
          have blank := (defined_eq_none_iff _ _ decodes accounts).mp made other present shared
          rw [blank] at filled
          cases filled
      · intro undefined
        have made := (defined_eq_none_iff daemon.accounts.casemapping key decodes accounts).mpr fun account listed named =>
          absurd ⟨account, listed, named⟩ undefined
        rw [made, Option.none_or]
    · exact ⟨grants, opers, appointed.holds, appointed.hosts⟩
    all_goals rfl

/-- A REHASH is atomic exactly when it is refused before anything is applied, or what it applies does no harm. -/
theorem rehash_atomic_iff (around : Surroundings) (daemon : Daemon) :
    Atomic around daemon ↔
      ∀ staged, stage around daemon = .ok staged → Harmless around.hashing daemon staged.1 := by
  rw [Atomic]
  cases ready : stage around daemon with
  | error failure =>
    rw [rehash_refused ready]
    simp only [reduceCtorEq, false_implies, implies_true, iff_true]
    exact Settings.Same.refl _
  | ok staged =>
    have decodes := decodes_of_stage ready
    rw [rehash_staged ready]
    simp only [Except.ok.injEq, forall_eq']
    rw [Harmless]
    -- a failure while hashing comes too late: what was applied before it stays
    rcases accounts : survey (AccountConfig.credentials around.hashing) staged.1.accounts daemon.drawn with
      ⟨given, failure | middle⟩
    · obtain ⟨drawn, after, stopped, seeded⟩ := applyConfig_stops_at_account decodes accounts
      rw [bind_error stopped]
      exact seeded.same_iff
    · rcases opers : survey (OperatorConfig.grant around.hashing) staged.1.operators middle with
        ⟨grants, failure | last⟩
      · obtain ⟨drawn, before, after, stopped, seeded, appointed⟩ :=
          applyConfig_stops_at_operator decodes accounts opers
        rw [bind_error stopped]
        simp only [opers]
        exact Appointed.same_iff seeded appointed
      · obtain ⟨before, after, ran, seeded, appointed⟩ :=
          applyConfig_ok decodes accounts opers
        rw [bind_run ran, modify_run]
        simp only [opers]
        exact adopt_meets_iff decodes (survey_gives accounts) (survey_gives opers) seeded appointed

end Whole

section Example

/-- A configuration file with one account and an operator whose password was forgotten. -/
def forgetfulConfig : Config where
  tls := { selfSignedDev := true }
  accounts := [{ name := "bob", passwordHash := some "$argon2id$bob" }]
  operators := [{ name := "root" }]

def forgetfulSurroundings : Surroundings where
  hashing :=
    { crypto :=
        { argon2 := fun hash password => hash == "$argon2id$" ++ password
          hmac := fun key text => key ++ text
          sha256 := fun text => text.take 32
          encodeBase64 := fun _ => ""
          decodeBase64 := fun _ => none }
      entropy := fun drawn => .ok (List.replicate 16 (UInt8.ofNat drawn))
      argon2Hash := fun password _ => .ok ("$argon2id$" ++ fromUtf8Lossy password)
      pbkdf2 := fun password salt _ => (password ++ salt).take 32
      toLowercase := asciiLower }
  parse := fun _ => .ok forgetfulConfig
  buildServerConfig := fun _ => .ok []
  buildLinkClientConfig := fun _ => .ok []
  nowUnix := 0

/-- A server whose users log in to the account of alice. -/
def servingAlice : Daemon where
  accounts := (AccountStore.mk .ascii ∅).upsertPassword "alice" "$argon2id$alice"
  opers := AccountStore.mk .ascii ∅
  operHosts := ∅
  serverBans := []
  motd := []
  clientPassword := none
  webirc := []
  linkConfigs := []
  configPath := some "ferrixd.toml"
  tls := some []
  linkClientConfig := some []
  chanreg := none
  drawn := 0

/-- A REHASH that is refused for an operator has by then replaced every account. -/
theorem refused_rehash_drops_accounts : ¬ ∀ around daemon, Atomic around daemon := by
  intro atomic
  have same := atomic forgetfulSurroundings servingAlice
  have ready : stage forgetfulSurroundings servingAlice = .ok (forgetfulConfig, some [], []) := by
    rfl
  have stopped : ∃ after, applyConfig forgetfulSurroundings.hashing 0 forgetfulConfig servingAlice =
      .error "operator root has no password" after ∧ after.accounts.accounts.lookup "alice" = none := by
    exact ⟨_, rfl, by decide +kernel⟩
  obtain ⟨after, ran, dropped⟩ := stopped
  have refused := (rehash_staged ready).trans (bind_error ran)
  rw [Atomic, refused] at same
  have kept := same.accounts "alice"
  rw [dropped] at kept
  exact absurd kept (by decide +kernel)

end Example

end Ferrixd
