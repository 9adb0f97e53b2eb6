import Ferrixd.Data.Base64
import Ferrixd.Data.Split
import Ferrixd.Login.Soundness

/-! # A SCRAM client

The client's side of an exchange, from the same password as the stored keys.  Both sides build the message that is
signed from the lines they saw, the client with the header it sent and the server with a fixed one. -/

namespace Ferrixd

/-- `format!("{b:02x}")` for every byte that the random generator gives. -/
def randomNonce (entropy : Option Bytes) : Option String :=
  entropy.map fun bytes =>
    String.ofList (bytes.flatMap fun b => [Nat.digitChar (b.toNat / 16), Nat.digitChar (b.toNat % 16)])

/-- Derive credentials from a password; `pbkdf2` stretches it with a salt. -/
def derive (crypto : Crypto) (pbkdf2 : Bytes → Bytes → UInt32 → Bytes) (password : String) (salt : Bytes)
    (iterations : UInt32) : ScramCreds :=
  let salted := pbkdf2 (utf8 password) salt iterations
  { salt, iterations
    storedKey := crypto.sha256 (crypto.hmac salted (utf8 "Client Key"))
    serverKey := crypto.hmac salted (utf8 "Server Key") }

/-! ## The client -/

/-- A name on the wire. -/
def escapeName (name : String) : String :=
  String.ofList (name.toList.flatMap fun c =>
    if c = ',' then ['=', '2', 'C'] else if c = '=' then ['=', '3', 'D'] else [c])

/-- A client with a user name, a password and a nonce; it may support channel binding, or act for another name. -/
structure ScramClient where
  supportsBinding : Bool
  authzid : Option String
  username : String
  password : String
  nonce : String

namespace ScramClient

variable (crypto : Crypto) (pbkdf2 : Bytes → Bytes → UInt32 → Bytes) (client : ScramClient)

def gs2Header : String :=
  (if client.supportsBinding then "y" else "n") ++ "," ++
    client.authzid.elim "" (fun authzid => "a=" ++ escapeName authzid) ++ ","

def firstBare : String :=
  "n=" ++ escapeName client.username ++ ",r=" ++ client.nonce

def clientFirst : String :=
  client.gs2Header ++ client.firstBare

def withoutProof (nonce : String) : String :=
  "c=" ++ crypto.encodeBase64 (utf8 client.gs2Header) ++ ",r=" ++ nonce

def authMessage (serverFirst nonce : String) : String :=
  client.firstBare ++ "," ++ serverFirst ++ "," ++ client.withoutProof crypto nonce

def clientKey (salt : Bytes) (iterations : UInt32) : Bytes :=
  crypto.hmac (pbkdf2 (utf8 client.password) salt iterations) (utf8 "Client Key")

def proof (salt : Bytes) (iterations : UInt32) (message : Bytes) : Bytes :=
  let clientKey := client.clientKey crypto pbkdf2 salt iterations
  List.zipWith (fun left right => left ^^^ right) clientKey (crypto.hmac (crypto.sha256 clientKey) message)

/-- What the server signs with, from the password. -/
def serverSignature (salt : Bytes) (iterations : UInt32) (message : Bytes) : Bytes :=
  crypto.hmac (crypto.hmac (pbkdf2 (utf8 client.password) salt iterations) (utf8 "Server Key")) message

/-- The answer to the server's first message, with the signature that is expected of the server. -/
def clientFinal (serverFirst : String) : Option (String × String) :=
  match serverFirst.splitOn "," with
  | [nonce, salt, iterations] => do
    let nonce ← stripLead? nonce "r="
    if !startsWith nonce client.nonce then none
    else
      let salt ← (← stripLead? salt "s=") |> crypto.decodeBase64
      let iterations ← (← stripLead? iterations "i=") |> parseU32
      let message := utf8 (client.authMessage crypto serverFirst nonce)
      return (client.withoutProof crypto nonce ++ ",p=" ++
          crypto.encodeBase64 (client.proof crypto pbkdf2 salt iterations message),
        "v=" ++ crypto.encodeBase64 (client.serverSignature crypto pbkdf2 salt iterations message))
  | _ => none

/-- The client logs in: the server answers its messages, at last with the signature it expects. -/
def LogsIn (serverNonce : String) (lookup : String → Option (String × ScramCreds)) (account : String) : Prop :=
  ∃ exchange serverFirst answer signature,
    Exchange.start crypto client.clientFirst serverNonce lookup = some (exchange, serverFirst) ∧
      exchange.account = account ∧ client.clientFinal crypto pbkdf2 serverFirst = some (answer, signature) ∧
      exchange.finish crypto answer = some signature

end ScramClient

/-- What is relied on of the libraries: the base64 of the standard, and signatures of 32 bytes. -/
structure Crypto.Lawful (crypto : Crypto) : Prop where
  encode : crypto.encodeBase64 = Base64.encode
  decode : crypto.decodeBase64 = Base64.decode
  hmac : ∀ key message, (crypto.hmac key message).length = 32

/-! ## Names and fields -/

theorem escapeName_clean (name : String) : ',' ∉ (escapeName name).toList := by
  rw [escapeName, String.toList_ofList, List.mem_flatMap]
  rintro ⟨c, _, member⟩
  split at member
  · exact absurd member (by decide)
  split at member
  · exact absurd member (by decide)
  · rename_i notComma _
    exact notComma (List.mem_singleton.mp member).symm

/-- The characters of a name on the wire, at least as many. -/
theorem length_escaped (chars : List Char) :
    chars.length ≤ (chars.flatMap fun c =>
      if c = ',' then ['=', '2', 'C'] else if c = '=' then ['=', '3', 'D'] else [c]).length := by
  induction chars with
  | nil => exact Nat.zero_le _
  | cons c rest ih =>
    rw [List.flatMap_cons, List.length_append, List.length_cons, Nat.add_comm]
    refine Nat.add_le_add ?_ ih
    split
    · exact Nat.succ_le_of_lt (by decide)
    split
    · exact Nat.succ_le_of_lt (by decide)
    · exact Nat.le_refl 1

/-- Only a name with a comma or an equals sign changes on the wire. -/
theorem escapeName_eq_iff (name : String) : escapeName name = name ↔ ',' ∉ name.toList ∧ '=' ∉ name.toList := by
  rw [escapeName, ← String.toList_inj, String.toList_ofList]
  induction name.toList with
  | nil => simp
  | cons c rest ih =>
    rw [List.flatMap_cons, List.mem_cons, List.mem_cons, not_or, not_or]
    by_cases comma : c = ','
    · rw [if_pos comma, comma]
      refine iff_of_false (fun same => ?_) fun plain => plain.1.1 rfl
      exact absurd (List.cons.inj same).1 (by decide)
    by_cases equals : c = '='
    · rw [if_neg comma, if_pos equals, equals]
      refine iff_of_false (fun same => ?_) fun plain => plain.2.1 rfl
      have longer := congrArg List.length same
      have atLeast := length_escaped rest
      rw [List.length_append, List.length_cons] at longer
      simp only [List.length_cons, List.length_nil] at longer
      omega
    · rw [if_neg comma, if_neg equals, List.singleton_append, List.cons_inj_right, ih]
      have commas : ¬ ',' = c := fun same => comma same.symm
      have signs : ¬ '=' = c := fun same => equals same.symm
      tauto

theorem randomNonce_clean {entropy : Option Bytes} {nonce : String} (drawn : randomNonce entropy = some nonce) :
    ',' ∉ nonce.toList := by
  obtain ⟨bytes, _, rfl⟩ := Option.map_eq_some_iff.mp drawn
  rw [String.toList_ofList, List.mem_flatMap]
  rintro ⟨b, _, member⟩
  have digits : ∀ value < 16, Nat.digitChar value ≠ ',' := by decide
  have small := b.toNat_lt
  rcases List.mem_cons.mp member with high | low
  · exact digits _ (by omega) high.symm
  · exact digits _ (by omega) (List.mem_singleton.mp low).symm

theorem toString_iterations (iterations : UInt32) :
    toString iterations = printU64 (UInt64.ofNat iterations.toNat) := by
  have small := iterations.toNat_lt
  rw [printU64, UInt64.toNat_ofNat', Nat.mod_eq_of_lt (by omega)]
  rfl

theorem parseU32_toString (iterations : UInt32) : parseU32 (toString iterations) = some iterations := by
  have small := iterations.toNat_lt
  rw [parseU32, toString_iterations, parseU64_printU64, Option.bind_some,
    UInt64.toNat_ofNat', Nat.mod_eq_of_lt (by omega), if_pos small, UInt32.ofNat_toNat]

theorem iterations_clean (iterations : UInt32) : ',' ∉ (toString iterations).toList := by
  rw [toString_iterations]
  exact fun member => absurd (printU64_digits _ _ member) (by decide)

theorem base64_clean (data : Bytes) : ',' ∉ (Base64.encode data).toList :=
  Base64.standard.notMem (by decide) (by decide) data

theorem field_clean {key value : String} (keyClean : ',' ∉ key.toList) (clean : ',' ∉ value.toList) :
    ',' ∉ (key ++ value).toList := by
  rw [String.toList_append, List.mem_append, not_or]
  exact ⟨keyClean, clean⟩

theorem lastField_nil (key : String) : lastField [] key = none := rfl

theorem lastField_cons (field : String) (fields : List String) (key : String) :
    lastField (field :: fields) key = (lastField fields key).or (stripLead? field key) := by
  rw [lastField, lastField, List.filterMap_cons]
  cases stripLead? field key with
  | none => rw [Option.or_none]
  | some value =>
    dsimp only
    rw [List.getLast?_cons]
    cases (fields.filterMap fun field => stripLead? field key).getLast? <;> rfl

theorem own_field (key value : String) : stripLead? (key ++ value) key = some value :=
  stripLead?_some.mpr rfl

theorem other_field {lead key : String} (value : String) (sameLength : key.toList.length = lead.toList.length)
    (different : key ≠ lead) : stripLead? (lead ++ value) key = none := by
  cases stripped : stripLead? (lead ++ value) key with
  | none => rfl
  | some rest =>
    have same := congrArg String.toList (stripLead?_some.mp stripped)
    rw [String.toList_append, String.toList_append] at same
    exact absurd (String.toList_inj.mp (List.append_inj_left same.symm sameLength)) different

theorem xor_cancel {left right : Bytes} (same : left.length = right.length) :
    List.zipWith (fun left right => left ^^^ right) (List.zipWith (fun left right => left ^^^ right) left right)
      right = left := by
  induction left generalizing right with
  | nil => rfl
  | cons a left ih =>
    cases right with
    | nil => cases same
    | cons b right =>
      rw [List.zipWith_cons_cons, List.zipWith_cons_cons, ih (Nat.succ.inj same), UInt8.xor_assoc, UInt8.xor_self,
        UInt8.xor_zero]

/-! ## The messages -/

/-- The server's first message. -/
def Exchange.opening (crypto : Crypto) (creds : ScramCreds) (combinedNonce : String) : String :=
  "r=" ++ combinedNonce ++ ",s=" ++ crypto.encodeBase64 creds.salt ++ ",i=" ++ toString creds.iterations

namespace ScramClient

/-- The exchange after the first messages. -/
def exchange (crypto : Crypto) (client : ScramClient) (serverNonce account : String) (creds : ScramCreds) :
    Exchange where
  account := account
  creds := creds
  clientFirstBare := client.firstBare
  serverFirst := Exchange.opening crypto creds (client.nonce ++ serverNonce)
  combinedNonce := client.nonce ++ serverNonce

/-- What the server signs, whatever header it was sent. -/
def serverMessage (crypto : Crypto) (client : ScramClient) (creds : ScramCreds) (serverNonce : String) : String :=
  client.firstBare ++ "," ++ Exchange.opening crypto creds (client.nonce ++ serverNonce) ++ "," ++
    ("c=biws,r=" ++ (client.nonce ++ serverNonce))

/-- What the client signs. -/
def clientMessage (crypto : Crypto) (client : ScramClient) (creds : ScramCreds) (serverNonce : String) : String :=
  client.authMessage crypto (Exchange.opening crypto creds (client.nonce ++ serverNonce)) (client.nonce ++ serverNonce)

variable {crypto : Crypto} {pbkdf2 : Bytes → Bytes → UInt32 → Bytes} {client : ScramClient}

theorem afterComma_at {before : List Char} (clean : ',' ∉ before) (after : List Char) :
    afterComma (before ++ ',' :: after) = some after := by
  have differ : ∀ c ∈ before, (c != ',') = true := fun c member => bne_iff_ne.mpr fun same => clean (same ▸ member)
  rw [afterComma, List.dropWhile_append_of_pos differ, List.dropWhile_cons_of_neg (by decide)]

theorem clientFirstBare_clientFirst (client : ScramClient) :
    clientFirstBare client.clientFirst = some client.firstBare := by
  have flag : ',' ∉ (if client.supportsBinding then "y" else "n").toList := by
    split <;> decide
  have name : ',' ∉ (client.authzid.elim "" fun authzid => "a=" ++ escapeName authzid).toList := by
    cases client.authzid with
    | none => decide
    | some authzid => exact field_clean (by decide) (escapeName_clean authzid)
  have chars : client.clientFirst.toList = (if client.supportsBinding then "y" else "n").toList ++
      ',' :: ((client.authzid.elim "" fun authzid => "a=" ++ escapeName authzid).toList ++
        ',' :: client.firstBare.toList) := by
    simp [clientFirst, gs2Header]
  rw [clientFirstBare, chars, afterComma_at flag, Option.bind_some, afterComma_at name, Option.map_some,
    String.ofList_toList]

theorem splitOn_comma {left : String} (clean : ',' ∉ left.toList) (right : String) :
    (left ++ "," ++ right).splitOn "," = left :: right.splitOn "," :=
  splitOn_cons clean right

theorem firstBare_fields (nonceClean : ',' ∉ client.nonce.toList) :
    client.firstBare.splitOn "," = ["n=" ++ escapeName client.username, "r=" ++ client.nonce] := by
  have shape : client.firstBare = "n=" ++ escapeName client.username ++ "," ++ ("r=" ++ client.nonce) := by
    rw [firstBare, ← String.toList_inj]
    simp
  have last : ("r=" ++ client.nonce).splitOn "," = ["r=" ++ client.nonce] :=
    splitOn_clean (field_clean (by decide) nonceClean)
  rw [shape, splitOn_comma (field_clean (by decide) (escapeName_clean _)), last]

/-- The server looks up the name as it is on the wire. -/
theorem start_clientFirst (crypto : Crypto) (nonceClean : ',' ∉ client.nonce.toList) (serverNonce : String)
    (lookup : String → Option (String × ScramCreds)) :
    Exchange.start crypto client.clientFirst serverNonce lookup =
      (lookup (escapeName client.username)).map fun found =>
        (client.exchange crypto serverNonce found.1 found.2,
          Exchange.opening crypto found.2 (client.nonce ++ serverNonce)) := by
  have notNonce : stripLead? ("r=" ++ client.nonce) "n=" = none := other_field _ (by decide) (by decide)
  have notName : stripLead? ("n=" ++ escapeName client.username) "r=" = none :=
    other_field _ (by decide) (by decide)
  have username : lastField (client.firstBare.splitOn ",") "n=" = some (escapeName client.username) := by
    rw [firstBare_fields nonceClean, lastField_cons, lastField_cons, lastField_nil, notNonce, own_field]
    rfl
  have nonce : lastField (client.firstBare.splitOn ",") "r=" = some client.nonce := by
    rw [firstBare_fields nonceClean, lastField_cons, lastField_cons, lastField_nil, notName, own_field]
    rfl
  rw [Exchange.start, clientFirstBare_clientFirst]
  simp only [Option.bind_eq_bind, Option.bind_some, username, nonce]
  cases lookup (escapeName client.username) with
  | none => rfl
  | some found => rfl

theorem opening_fields (lawful : crypto.Lawful) (creds : ScramCreds) {combined : String}
    (clean : ',' ∉ combined.toList) :
    (Exchange.opening crypto creds combined).splitOn "," =
      ["r=" ++ combined, "s=" ++ Base64.encode creds.salt, "i=" ++ toString creds.iterations] := by
  have shape : Exchange.opening crypto creds combined = "r=" ++ combined ++ "," ++
      ("s=" ++ Base64.encode creds.salt ++ "," ++ ("i=" ++ toString creds.iterations)) := by
    rw [Exchange.opening, lawful.encode, ← String.toList_inj]
    simp
  have last : ("i=" ++ toString creds.iterations).splitOn "," = ["i=" ++ toString creds.iterations] :=
    splitOn_clean (field_clean (by decide) (iterations_clean _))
  rw [shape, splitOn_comma (field_clean (by decide) clean),
    splitOn_comma (field_clean (by decide) (base64_clean _)), last]

/-- The client answers the first message of a server that has the salt and the iterations. -/
theorem clientFinal_opening (lawful : crypto.Lawful) (client : ScramClient) (creds : ScramCreds) {serverNonce : String}
    (clean : ',' ∉ (client.nonce ++ serverNonce).toList) :
    client.clientFinal crypto pbkdf2 (Exchange.opening crypto creds (client.nonce ++ serverNonce)) =
      some (client.withoutProof crypto (client.nonce ++ serverNonce) ++ ",p=" ++
          crypto.encodeBase64 (client.proof crypto pbkdf2 creds.salt creds.iterations
            (utf8 (client.clientMessage crypto creds serverNonce))),
        "v=" ++ crypto.encodeBase64 (client.serverSignature crypto pbkdf2 creds.salt creds.iterations
          (utf8 (client.clientMessage crypto creds serverNonce)))) := by
  have own : startsWith (client.nonce ++ serverNonce) client.nonce = true := startsWith_iff.mpr ⟨serverNonce, rfl⟩
  have salt : crypto.decodeBase64 (Base64.encode creds.salt) = some creds.salt := by
    rw [lawful.decode]
    exact Base64.standard.roundTrip creds.salt
  rw [clientFinal, opening_fields lawful creds clean]
  simp only [own_field, Option.bind_eq_bind, Option.bind_some, own, salt, parseU32_toString, Bool.not_true,
    Bool.false_eq_true, if_false]
  rfl

/-- A server checks the proof, and answers with its signature. -/
theorem finish_answer (lawful : crypto.Lawful) {exchange : Exchange} (clean : ',' ∉ exchange.combinedNonce.toList)
    (header : Bytes) {proof : Bytes} (length : proof.length = 32) :
    exchange.finish crypto ("c=" ++ crypto.encodeBase64 header ++ ",r=" ++ exchange.combinedNonce ++ ",p=" ++
        crypto.encodeBase64 proof) =
      if crypto.sha256 (List.zipWith (fun left right => left ^^^ right) proof
          (crypto.hmac exchange.creds.storedKey (utf8 exchange.authMessage))) ≠ exchange.creds.storedKey then none
      else some ("v=" ++ crypto.encodeBase64 (crypto.hmac exchange.creds.serverKey (utf8 exchange.authMessage))) := by
  have fields : ("c=" ++ crypto.encodeBase64 header ++ ",r=" ++ exchange.combinedNonce ++ ",p=" ++
      crypto.encodeBase64 proof).splitOn "," =
      ["c=" ++ Base64.encode header, "r=" ++ exchange.combinedNonce, "p=" ++ Base64.encode proof] := by
    have shape : "c=" ++ crypto.encodeBase64 header ++ ",r=" ++ exchange.combinedNonce ++ ",p=" ++
        crypto.encodeBase64 proof = "c=" ++ Base64.encode header ++ "," ++
          ("r=" ++ exchange.combinedNonce ++ "," ++ ("p=" ++ Base64.encode proof)) := by
      rw [lawful.encode, ← String.toList_inj]
      simp
    have last : ("p=" ++ Base64.encode proof).splitOn "," = ["p=" ++ Base64.encode proof] :=
      splitOn_clean (field_clean (by decide) (base64_clean _))
    rw [shape, splitOn_comma (field_clean (by decide) (base64_clean _)),
      splitOn_comma (field_clean (by decide) clean), last]
  -- the fields are told apart by their first two characters, the last of each kind counts
  have proofNotNonce : stripLead? ("p=" ++ Base64.encode proof) "r=" = none := other_field _ (by decide) (by decide)
  have nonce : lastField ["c=" ++ Base64.encode header, "r=" ++ exchange.combinedNonce, "p=" ++ Base64.encode proof]
      "r=" = some exchange.combinedNonce := by
    rw [lastField_cons, lastField_cons, lastField_cons, lastField_nil, proofNotNonce, own_field]
    rfl
  have sent : lastField ["c=" ++ Base64.encode header, "r=" ++ exchange.combinedNonce, "p=" ++ Base64.encode proof]
      "p=" = some (Base64.encode proof) := by
    rw [lastField_cons, lastField_cons, lastField_cons, lastField_nil, own_field]
    rfl
  have decoded : crypto.decodeBase64 (Base64.encode proof) = some proof := by
    rw [lawful.decode]
    exact Base64.standard.roundTrip proof
  rw [Exchange.finish, fields]
  simp only [nonce, sent, decoded, Option.bind_eq_bind, Option.bind_some, ne_eq, not_true_eq_false, if_false, length]

theorem length_proof (lawful : crypto.Lawful) (client : ScramClient) (salt : Bytes) (iterations : UInt32)
    (message : Bytes) : (client.proof crypto pbkdf2 salt iterations message).length = 32 := by
  rw [proof, List.length_zipWith, clientKey, lawful.hmac, lawful.hmac]
  rfl

/-! ## Logging in -/

theorem gs2Header_plain_iff (client : ScramClient) :
    client.gs2Header = "n,," ↔ client.supportsBinding = false ∧ client.authzid = none := by
  rw [gs2Header, ← String.toList_inj]
  cases client.supportsBinding with
  | true => simp
  | false => cases client.authzid <;> simp

theorem encode_injective {left right : Bytes} (same : Base64.encode left = Base64.encode right) : left = right := by
  have read := Base64.standard.roundTrip left
  rw [same, Base64.standard.roundTrip] at read
  exact (Option.some.inj read).symm

theorem utf8_injective {left right : String} (same : utf8 left = utf8 right) : left = right := by
  have read := fromUtf8?_utf8 left
  rw [same, fromUtf8?_utf8] at read
  exact (Option.some.inj read).symm

/-- The client names the header that the server takes for granted exactly if it sent that one. -/
theorem withoutProof_fixed_iff (lawful : crypto.Lawful) (client : ScramClient) (nonce : String) :
    client.withoutProof crypto nonce = "c=biws,r=" ++ nonce ↔ client.gs2Header = "n,," := by
  have biws : Base64.encode (utf8 "n,,") = "biws" := by decide
  have shape : "c=biws,r=" ++ nonce = "c=" ++ Base64.encode (utf8 "n,,") ++ ",r=" ++ nonce := by
    rw [biws]
    rfl
  rw [withoutProof, lawful.encode, shape]
  constructor
  · intro same
    have chars := congrArg String.toList same
    simp only [String.toList_append, List.append_assoc, List.append_cancel_left_eq, List.append_cancel_right_eq]
      at chars
    exact utf8_injective (encode_injective (String.toList_inj.mp chars))
  · intro same
    rw [same]

variable {serverNonce account : String} {lookup : String → Option (String × ScramCreds)} {salt : Bytes}
  {iterations : UInt32}

theorem combined_clean (nonceClean : ',' ∉ client.nonce.toList) (serverClean : ',' ∉ serverNonce.toList) :
    ',' ∉ (client.nonce ++ serverNonce).toList := by
  rw [String.toList_append, List.mem_append, not_or]
  exact ⟨nonceClean, serverClean⟩

theorem messages_same_iff (lawful : crypto.Lawful) (client : ScramClient) (creds : ScramCreds) (serverNonce : String) :
    client.clientMessage crypto creds serverNonce = client.serverMessage crypto creds serverNonce ↔
      client.gs2Header = "n,," := by
  rw [clientMessage, authMessage, serverMessage, ← withoutProof_fixed_iff lawful client (client.nonce ++ serverNonce),
    String.append_right_inj]

/-- A client whose wire name is known logs in exactly if the signatures of both messages agree. -/
theorem logsIn_iff (lawful : crypto.Lawful) (nonceClean : ',' ∉ client.nonce.toList)
    (serverClean : ',' ∉ serverNonce.toList) {creds : ScramCreds}
    (isDerived : creds = derive crypto pbkdf2 client.password salt iterations)
    (found : lookup (escapeName client.username) = some (account, creds)) :
    client.LogsIn crypto pbkdf2 serverNonce lookup account ↔
      crypto.sha256 (List.zipWith (fun left right => left ^^^ right)
          (client.proof crypto pbkdf2 salt iterations (utf8 (client.clientMessage crypto creds serverNonce)))
          (crypto.hmac creds.storedKey (utf8 (client.serverMessage crypto creds serverNonce)))) = creds.storedKey ∧
        crypto.hmac creds.serverKey (utf8 (client.clientMessage crypto creds serverNonce)) =
          crypto.hmac creds.serverKey (utf8 (client.serverMessage crypto creds serverNonce)) := by
  have clean := combined_clean nonceClean serverClean
  have started := start_clientFirst crypto nonceClean serverNonce lookup
  rw [found, Option.map_some] at started
  have answered := @clientFinal_opening crypto pbkdf2 lawful client creds serverNonce clean
  have checked := @finish_answer crypto lawful (client.exchange crypto serverNonce account creds) clean
    (utf8 client.gs2Header) _ (@length_proof crypto pbkdf2 lawful client salt iterations
      (utf8 (client.clientMessage crypto creds serverNonce)))
  have keys : creds.salt = salt ∧ creds.iterations = iterations ∧
      creds.serverKey = crypto.hmac (pbkdf2 (utf8 client.password) salt iterations) (utf8 "Server Key") := by
    rw [isDerived]
    exact ⟨rfl, rfl, rfl⟩
  rw [keys.1, keys.2.1, serverSignature, ← keys.2.2] at answered
  -- the first two messages leave no choice, so only the final one decides
  have verdict : client.LogsIn crypto pbkdf2 serverNonce lookup account ↔
      (client.exchange crypto serverNonce account creds).finish crypto
        (client.withoutProof crypto (client.nonce ++ serverNonce) ++ ",p=" ++ crypto.encodeBase64
          (client.proof crypto pbkdf2 salt iterations (utf8 (client.clientMessage crypto creds serverNonce)))) =
        some ("v=" ++ crypto.encodeBase64
          (crypto.hmac creds.serverKey (utf8 (client.clientMessage crypto creds serverNonce)))) := by
    constructor
    · rintro ⟨exchange, serverFirst, answer, signature, isStarted, -, isAnswered, finished⟩
      rw [started] at isStarted
      cases isStarted
      rw [answered] at isAnswered
      cases isAnswered
      exact finished
    · exact fun finished => ⟨_, _, _, _, started, rfl, answered, finished⟩
  rw [verdict]
  refine (Eq.congr_left checked).trans ?_
  change (if crypto.sha256 (List.zipWith _ _ (crypto.hmac creds.storedKey
    (utf8 (client.serverMessage crypto creds serverNonce)))) ≠ creds.storedKey then none
    else some ("v=" ++ crypto.encodeBase64 (crypto.hmac creds.serverKey
      (utf8 (client.serverMessage crypto creds serverNonce))))) = _ ↔ _
  split
  · rename_i unproved
    exact iff_of_false nofun fun agree => unproved agree.1
  · rename_i proved
    rw [Decidable.not_not] at proved
    rw [Option.some.injEq, String.append_right_inj, lawful.encode]
    exact ⟨fun same => ⟨proved, (encode_injective same).symm⟩, fun agree => congrArg Base64.encode agree.2.symm⟩

/-- A client that sends the plain header and a plain name logs in. -/
theorem logsIn_plain (lawful : crypto.Lawful) (nonceClean : ',' ∉ client.nonce.toList)
    (serverClean : ',' ∉ serverNonce.toList) (header : client.gs2Header = "n,,")
    (name : escapeName client.username = client.username)
    (found : lookup client.username = some (account, derive crypto pbkdf2 client.password salt iterations)) :
    client.LogsIn crypto pbkdf2 serverNonce lookup account := by
  rw [← name] at found
  refine (logsIn_iff lawful nonceClean serverClean rfl found).mpr ⟨?_, ?_⟩
  · have lengths : (client.clientKey crypto pbkdf2 salt iterations).length =
        (crypto.hmac (crypto.sha256 (client.clientKey crypto pbkdf2 salt iterations)) (utf8 (client.serverMessage
          crypto (derive crypto pbkdf2 client.password salt iterations) serverNonce))).length := by
      rw [clientKey, lawful.hmac, lawful.hmac]
    rw [(messages_same_iff lawful client _ serverNonce).mpr header, proof]
    exact congrArg crypto.sha256 (xor_cancel lengths)
  · rw [(messages_same_iff lawful client _ serverNonce).mpr header]

theorem LogsIn.found (logsIn : client.LogsIn crypto pbkdf2 serverNonce lookup account)
    (nonceClean : ',' ∉ client.nonce.toList) : (lookup (escapeName client.username)).isSome = true := by
  obtain ⟨exchange, serverFirst, _, _, started, _⟩ := logsIn
  rw [start_clientFirst crypto nonceClean] at started
  obtain ⟨found, isFound, _⟩ := Option.map_eq_some_iff.mp started
  rw [isFound]
  rfl

/-- Signatures that differ for one message. -/
def markCrypto (marked : Bytes) : Crypto where
  argon2 _ _ := false
  hmac _ message := List.replicate 32 (if message = marked then 1 else 0)
  sha256 data := data
  encodeBase64 := Base64.encode
  decodeBase64 := Base64.decode

theorem markCrypto_lawful (marked : Bytes) : (markCrypto marked).Lawful :=
  ⟨rfl, rfl, fun _ _ => List.length_replicate⟩

theorem markCrypto_marks {marked message key : Bytes}
    (same : (markCrypto marked).hmac key marked = (markCrypto marked).hmac key message) : message = marked := by
  by_contra other
  have bytes := List.replicate_right_injective (by decide : 32 ≠ 0) same
  rw [if_pos rfl, if_neg other] at bytes
  cases bytes

/-- The accounts are one account. -/
def onlyAccount (username account : String) (creds : ScramCreds) (name : String) : Option (String × ScramCreds) :=
  if name = username then some (account, creds) else none

/-- The client logs in with its password, whatever the libraries and the other accounts are. -/
def AlwaysLogsIn (client : ScramClient) (salt : Bytes) (iterations : UInt32) (serverNonce : String) : Prop :=
  ∀ crypto pbkdf2 lookup account, Crypto.Lawful crypto →
    lookup client.username = some (account, derive crypto pbkdf2 client.password salt iterations) →
      client.LogsIn crypto pbkdf2 serverNonce lookup account

/-- The client sends the header `n,,`, and its name is not changed on the wire. -/
def Plain (client : ScramClient) : Prop :=
  client.supportsBinding = false ∧ client.authzid = none ∧
    ',' ∉ client.username.toList ∧ '=' ∉ client.username.toList

/-- A client that is not plain logs in to the only account there is only if the server's signatures of two different
messages are the same. -/
theorem LogsIn.plain_or_collides (lawful : crypto.Lawful) (nonceClean : ',' ∉ client.nonce.toList)
    (serverClean : ',' ∉ serverNonce.toList) {creds : ScramCreds}
    (isDerived : creds = derive crypto pbkdf2 client.password salt iterations)
    (logsIn : client.LogsIn crypto pbkdf2 serverNonce (onlyAccount client.username account creds) account) :
    client.Plain ∨ client.clientMessage crypto creds serverNonce ≠ client.serverMessage crypto creds serverNonce ∧
      crypto.hmac creds.serverKey (utf8 (client.clientMessage crypto creds serverNonce)) =
        crypto.hmac creds.serverKey (utf8 (client.serverMessage crypto creds serverNonce)) := by
  have name : escapeName client.username = client.username := by
    by_contra different
    have found := logsIn.found nonceClean
    rw [onlyAccount, if_neg different] at found
    cases found
  have known : onlyAccount client.username account creds (escapeName client.username) = some (account, creds) :=
    if_pos name
  have signed := ((logsIn_iff lawful nonceClean serverClean isDerived known).mp logsIn).2
  by_cases header : client.gs2Header = "n,,"
  · obtain ⟨binding, authzid⟩ := (gs2Header_plain_iff client).mp header
    exact .inl ⟨binding, authzid, (escapeName_eq_iff _).mp name⟩
  · exact .inr ⟨fun same => header ((messages_same_iff lawful client creds serverNonce).mp same), signed⟩

theorem alwaysLogsIn_iff (nonceClean : ',' ∉ client.nonce.toList) (serverClean : ',' ∉ serverNonce.toList)
    (salt : Bytes) (iterations : UInt32) :
    client.AlwaysLogsIn salt iterations serverNonce ↔ client.Plain := by
  constructor
  · intro always
    -- the message that the client signs does not depend on the signatures
    let blank := derive (markCrypto []) (fun _ _ _ => []) client.password salt iterations
    let crypto := markCrypto (utf8 (client.clientMessage (markCrypto []) blank serverNonce))
    let creds := derive crypto (fun _ _ _ => []) client.password salt iterations
    have logsIn := always crypto (fun _ _ _ => []) (onlyAccount client.username "account" creds) "account"
      (markCrypto_lawful _) (if_pos rfl)
    rcases logsIn.plain_or_collides (markCrypto_lawful _) nonceClean serverClean rfl with plain | ⟨differ, signed⟩
    · exact plain
    · exact absurd (utf8_injective (markCrypto_marks signed)).symm differ
  · rintro ⟨binding, authzid, plainName⟩ crypto pbkdf2 lookup account lawful found
    have header := (gs2Header_plain_iff client).mpr ⟨binding, authzid⟩
    exact logsIn_plain lawful nonceClean serverClean header ((escapeName_eq_iff _).mpr plainName) found

/-- An honest client logs in exactly if it sends the header `n,,` and a name that is not changed on the wire; another
one does so, on a server with its account, only if two messages have one signature.  A message is accepted only if it
has the nonce of both sides and proves the key that is stored. -/
theorem scram_exact (client : ScramClient) (salt : Bytes) (iterations : UInt32) (serverNonce : String)
    (nonceClean : ',' ∉ client.nonce.toList) (serverClean : ',' ∉ serverNonce.toList) :
    (client.AlwaysLogsIn salt iterations serverNonce ↔ client.Plain) ∧
    (∀ crypto pbkdf2 account, Crypto.Lawful crypto →
      let creds := derive crypto pbkdf2 client.password salt iterations
      client.LogsIn crypto pbkdf2 serverNonce (onlyAccount client.username account creds) account →
        client.Plain ∨ client.clientMessage crypto creds serverNonce ≠ client.serverMessage crypto creds serverNonce ∧
          crypto.hmac creds.serverKey (utf8 (client.clientMessage crypto creds serverNonce)) =
            crypto.hmac creds.serverKey (utf8 (client.serverMessage crypto creds serverNonce))) ∧
    ∀ crypto exchange answer signature, Exchange.finish crypto exchange answer = some signature →
      lastField (answer.splitOn ",") "r=" = some exchange.combinedNonce ∧
      ∃ proof64 proof, lastField (answer.splitOn ",") "p=" = some proof64 ∧
        crypto.decodeBase64 proof64 = some proof ∧
        crypto.sha256 (List.zipWith (fun left right => left ^^^ right) proof
          (crypto.hmac exchange.creds.storedKey (utf8 exchange.authMessage))) = exchange.creds.storedKey := by
  refine ⟨alwaysLogsIn_iff nonceClean serverClean salt iterations, ?_, ?_⟩
  · exact fun crypto pbkdf2 account lawful logsIn => logsIn.plain_or_collides lawful nonceClean serverClean rfl
  · intro crypto exchange answer signature finished
    obtain ⟨proof64, proof, nonce, sent, decoded, _, proved⟩ := Exchange.finish_some finished
    exact ⟨nonce, proof64, proof, sent, decoded, proved⟩

/-- `alice`, with the header `n,,` or `y,,`. -/
def alice (supportsBinding : Bool) : ScramClient :=
  ⟨supportsBinding, none, "alice", "hunter2", "clientnonce"⟩

theorem scram_exact_alice : ∃ serverNonce, randomNonce (some (List.replicate 18 0xab)) = some serverNonce ∧
    ((alice false).AlwaysLogsIn [1, 2, 3] 4096 serverNonce ↔ (alice false).Plain) :=
  ⟨_, rfl, (scram_exact (alice false) [1, 2, 3] 4096 _ (by decide)
    (@randomNonce_clean (some (List.replicate 18 0xab)) _ rfl)).1⟩

/-- A client that supports channel binding does not log in. -/
theorem binding_refused : ¬ ∀ (client : ScramClient) (salt : Bytes) (iterations : UInt32) (serverNonce : String),
    ',' ∉ client.nonce.toList → ',' ∉ serverNonce.toList → client.AlwaysLogsIn salt iterations serverNonce := by
  intro always
  have logsIn := always (alice true) [1, 2, 3] 4096 "00ff" (by decide) (by decide)
  have plain := (alwaysLogsIn_iff (by decide) (by decide) _ _).mp logsIn
  exact absurd plain.1 (by decide)

end ScramClient

end Ferrixd
