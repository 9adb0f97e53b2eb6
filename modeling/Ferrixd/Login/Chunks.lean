import Ferrixd.Data.Base64
import Ferrixd.Login.Sasl
import Mathlib.Data.List.DropRight

/-! # Responses in chunks

A response arrives as base64 text, at most 400 characters to a line.  The text may have 8192. -/

namespace Ferrixd

deriving instance DecidableEq for ChunkResult

/-- `+` stands for nothing. -/
def chunkText (chunk : String) : String :=
  if chunk = "+" then "" else chunk

/-- The text of some chunks. -/
def joinChunks (chunks : List String) : String :=
  String.join (chunks.map chunkText)

/-- A text in pieces of 400 characters; if the last one is full, `+` follows. -/
def pieces (text : List Char) : List String :=
  if text.length < chunkLen then [if text = [] then "+" else String.ofList text]
  else String.ofList (text.take chunkLen) :: pieces (text.drop chunkLen)
termination_by text.length
decreasing_by
  rename_i full
  rw [List.length_drop]
  exact Nat.sub_lt (Nat.lt_of_lt_of_le (by decide) (Nat.le_of_not_lt full)) (by decide)

/-- The chunks that came after the last response that was completed or refused. -/
def unended (chunks : List String) (results : List ChunkResult) : List String :=
  ((chunks.zip results).rtakeWhile fun entry => entry.2 = .needMore).map Prod.fst

namespace SaslSession

/-- The attempt after some chunks, and what each of them led to. -/
def pushAll (push : SaslSession → String → SaslSession × ChunkResult) :
    SaslSession → List String → SaslSession × List ChunkResult
  | sasl, [] => (sasl, [])
  | sasl, chunk :: rest =>
    let (later, result) := push sasl chunk
    let (last, results) := pushAll push later rest
    (last, result :: results)

/-- A chunk, as `AUTHENTICATE` takes it: the attempt is over if it is invalid. -/
def feed (crypto : Crypto) (sasl : SaslSession) (chunk : String) : SaslSession × ChunkResult :=
  match sasl.pushChunk crypto chunk with
  | (later, .invalid) => (later.reset, .invalid)
  | pushed => pushed

section Runs

variable {push : SaslSession → String → SaslSession × ChunkResult}

theorem pushAll_append (sasl : SaslSession) (chunks more : List String) :
    pushAll push sasl (chunks ++ more) =
      ((pushAll push (pushAll push sasl chunks).1 more).1,
        (pushAll push sasl chunks).2 ++ (pushAll push (pushAll push sasl chunks).1 more).2) := by
  induction chunks generalizing sasl with
  | nil => rfl
  | cons chunk rest ih => simp only [List.cons_append, pushAll, ih]

theorem pushAll_concat (sasl : SaslSession) (chunks : List String) (chunk : String) :
    pushAll push sasl (chunks ++ [chunk]) =
      ((push (pushAll push sasl chunks).1 chunk).1,
        (pushAll push sasl chunks).2 ++ [(push (pushAll push sasl chunks).1 chunk).2]) := by
  rw [pushAll_append]
  rfl

theorem pushAll_length (sasl : SaslSession) (chunks : List String) :
    (pushAll push sasl chunks).2.length = chunks.length := by
  induction chunks generalizing sasl with
  | nil => rfl
  | cons chunk rest ih => simp only [pushAll, List.length_cons, ih]

end Runs

variable {crypto : Crypto}

/-! ## One chunk -/

/-- A chunk is refused, ends a response, or is kept. -/
theorem pushChunk_spec (sasl : SaslSession) (chunk : String) :
    sasl.pushChunk crypto chunk = (sasl, .invalid) ∨
      sasl.pushChunk crypto chunk = ({ sasl with buffer := "" },
        (crypto.decodeBase64 (sasl.buffer ++ chunkText chunk)).elim .invalid .complete) ∨
      (sasl.buffer.utf8ByteSize + chunk.utf8ByteSize ≤ maxSaslLen ∧
        sasl.pushChunk crypto chunk = ({ sasl with buffer := sasl.buffer ++ chunkText chunk }, .needMore)) := by
  have text : (if chunk = "+" then sasl.buffer else sasl.buffer ++ chunk) = sasl.buffer ++ chunkText chunk := by
    rw [chunkText]
    split
    · rw [String.append_empty]
    · rfl
  simp only [pushChunk, text]
  split
  · exact .inl rfl
  · rename_i fits
    split
    · exact .inr (.inl rfl)
    · rename_i more
      rw [not_or] at more
      refine .inr (.inr ⟨?_, rfl⟩)
      by_contra tooLong
      exact fits ⟨more.1, by omega⟩

theorem chunkText_size (chunk : String) : (chunkText chunk).utf8ByteSize ≤ chunk.utf8ByteSize := by
  rw [chunkText]
  split
  · exact Nat.zero_le _
  · exact Nat.le_refl _

/-- The limit is kept by every chunk. -/
theorem pushChunk_bounded {sasl : SaslSession} (bounded : sasl.buffer.utf8ByteSize ≤ maxSaslLen) (chunk : String) :
    (sasl.pushChunk crypto chunk).1.buffer.utf8ByteSize ≤ maxSaslLen := by
  rcases @pushChunk_spec crypto sasl chunk with refused | ended | ⟨fits, kept⟩
  · rw [refused]
    exact bounded
  · rw [ended]
    exact Nat.zero_le _
  · rw [kept]
    have size := chunkText_size chunk
    simp only [String.utf8ByteSize_append]
    omega

/-- A chunk that is fed is kept, or nothing is; what is completed is the text that was kept and the chunk. -/
theorem feed_spec (sasl : SaslSession) (chunk : String) :
    ((sasl.feed crypto chunk).2 = .needMore ∧
        (sasl.feed crypto chunk).1.buffer = sasl.buffer ++ chunkText chunk) ∨
      ((sasl.feed crypto chunk).2 ≠ .needMore ∧ (sasl.feed crypto chunk).1.buffer = "" ∧
        ∀ data, (sasl.feed crypto chunk).2 = .complete data →
          crypto.decodeBase64 (sasl.buffer ++ chunkText chunk) = some data) := by
  simp only [feed]
  rcases @pushChunk_spec crypto sasl chunk with refused | ended | ⟨-, kept⟩
  · simp only [refused]
    exact .inr ⟨nofun, rfl, nofun⟩
  · rw [ended]
    cases decoded : crypto.decodeBase64 (sasl.buffer ++ chunkText chunk) with
    | none => exact .inr ⟨nofun, rfl, nofun⟩
    | some data => exact .inr ⟨nofun, rfl, fun other same => by cases same; rfl⟩
  · rw [kept]
    exact .inl ⟨rfl, rfl⟩

theorem scramStep_buffer (sasl : SaslSession) (accounts : AccountStore) (nonce : Option String) (data : Bytes)
    (empty : sasl.buffer = "") : (sasl.scramStep crypto accounts nonce data).1.buffer = "" := by
  rw [scramStep]
  split
  · rfl
  · split
    · split
      · exact empty
      · rfl
    · split
      · exact empty
      · rfl
    · rfl
    · rfl

/-- `AUTHENTICATE` feeds its parameter once a mechanism is selected, and nothing else fills the buffer. -/
theorem respond_buffer (sasl : SaslSession) (accounts : AccountStore) (nonce certFp : Option String) (arg : String) :
    (sasl.respond crypto accounts nonce certFp arg).1.buffer =
      if arg = "*" then "" else if sasl.mechanism = none then sasl.buffer else (sasl.feed crypto arg).1.buffer := by
  rw [respond]
  by_cases abort : arg = "*"
  · rw [if_pos abort, if_pos abort]
    rfl
  · rw [if_neg abort, if_neg abort]
    cases selected : sasl.mechanism with
    | none =>
      rw [if_pos rfl]
      cases Mechanism.fromName arg with
      | none => rfl
      | some mechanism => rfl
    | some mechanism =>
      rw [if_neg (Option.some_ne_none mechanism)]
      -- a payload that ended or was refused leaves nothing behind
      rcases @pushChunk_spec crypto sasl arg with refused | ended | ⟨-, kept⟩
      · simp only [feed, refused]
      · simp only [feed, ended]
        cases decoded : crypto.decodeBase64 (sasl.buffer ++ chunkText arg) with
        | none => rfl
        | some data =>
          simp only [Option.elim_some]
          split
          · exact scramStep_buffer _ accounts nonce data rfl
          · rfl
      · simp only [feed, kept]

/-! ## A payload -/

theorem utf8ByteSize_ascii {text : List Char} (ascii : ∀ c ∈ text, c.val < 128) :
    (String.ofList text).utf8ByteSize = text.length := by
  induction text with
  | nil => rfl
  | cons c rest ih =>
    have narrow : c.utf8Size = 1 := by
      have low : c.val ≤ 127 := by
        have below := UInt32.lt_iff_toNat_lt.mp (ascii c List.mem_cons_self)
        exact UInt32.le_iff_toNat_le.mpr (Nat.le_of_lt_succ below)
      exact if_pos low
    have split : String.ofList (c :: rest) = String.singleton c ++ String.ofList rest := by
      rw [String.singleton_eq_ofList, ← String.ofList_append, List.singleton_append]
    rw [split, String.utf8ByteSize_append, String.utf8ByteSize_singleton, narrow,
      ih fun other member => ascii other (List.mem_cons_of_mem _ member), List.length_cons, Nat.add_comm]

theorem pushChunk_last {sasl : SaslSession} {chunk : String} (last : chunk = "+" ∨ chunk.utf8ByteSize < chunkLen)
    (fits : sasl.buffer.utf8ByteSize + (chunkText chunk).utf8ByteSize ≤ maxSaslLen) {data : Bytes}
    (decoded : crypto.decodeBase64 (sasl.buffer ++ chunkText chunk) = some data) :
    sasl.pushChunk crypto chunk = ({ sasl with buffer := "" }, .complete data) := by
  by_cases marker : chunk = "+"
  · subst marker
    rw [chunkText, if_pos rfl, String.append_empty] at decoded
    simp only [pushChunk, ne_eq, not_true_eq_false, false_and, if_false, if_true, true_or, decoded, Option.elim_some]
  · rw [chunkText, if_neg marker] at fits decoded
    have room : ¬ (chunk ≠ "+" ∧ maxSaslLen < sasl.buffer.utf8ByteSize + chunk.utf8ByteSize) := fun exceeds => by omega
    simp only [pushChunk, if_neg room, if_neg marker, if_pos last, decoded, Option.elim_some]

theorem pushChunk_full {sasl : SaslSession} {chunk : String} (plain : chunk ≠ "+")
    (full : chunkLen ≤ chunk.utf8ByteSize) (fits : sasl.buffer.utf8ByteSize + chunk.utf8ByteSize ≤ maxSaslLen) :
    sasl.pushChunk crypto chunk = ({ sasl with buffer := sasl.buffer ++ chunk }, .needMore) := by
  have room : ¬ (chunk ≠ "+" ∧ maxSaslLen < sasl.buffer.utf8ByteSize + chunk.utf8ByteSize) := fun exceeds => by omega
  have more : ¬ (chunk = "+" ∨ chunk.utf8ByteSize < chunkLen) := by
    rw [not_or]
    exact ⟨plain, by omega⟩
  simp only [pushChunk, if_neg room, if_neg plain, if_neg more]

/-- A text whose length is a multiple of 4 is not the marker. -/
theorem ofList_ne_marker {text : List Char} (aligned : text.length % 4 = 0) : String.ofList text ≠ "+" := by
  intro marker
  have single : text = ['+'] := by rw [← String.toList_ofList (l := text), marker]; rfl
  rw [single] at aligned
  cases aligned

/-- The text of a payload, sent in pieces, is completed by the last one. -/
theorem pushAll_pieces {text : List Char} (ascii : ∀ c ∈ text, c.val < 128) (aligned : text.length % 4 = 0)
    {sasl : SaslSession} (fits : sasl.buffer.utf8ByteSize + text.length ≤ maxSaslLen) {data : Bytes}
    (decoded : crypto.decodeBase64 (sasl.buffer ++ String.ofList text) = some data) :
    pushAll (pushChunk crypto) sasl (pieces text) = ({ sasl with buffer := "" },
      List.replicate (text.length / chunkLen) .needMore ++ [.complete data]) := by
  induction text using pieces.induct generalizing sasl with
  | case1 text short =>
    have size := utf8ByteSize_ascii ascii
    -- the last chunk is shorter than the others, and `+` if nothing is left
    have content : chunkText (if text = [] then "+" else String.ofList text) = String.ofList text := by
      split
      · rename_i empty
        rw [empty]
        rfl
      · exact if_neg (ofList_ne_marker aligned)
    have last : (if text = [] then "+" else String.ofList text) = "+" ∨
        (if text = [] then "+" else String.ofList text).utf8ByteSize < chunkLen := by
      split
      · exact .inl rfl
      · exact .inr (by omega)
    rw [pieces, if_pos short, Nat.div_eq_of_lt short]
    simp only [pushAll, List.replicate_zero, List.nil_append]
    rw [pushChunk_last last (by rw [content]; omega) (by rw [content]; exact decoded)]
  | case2 text full ih =>
    have length : (text.take chunkLen).length = chunkLen := by rw [List.length_take]; omega
    have size : (String.ofList (text.take chunkLen)).utf8ByteSize = (text.take chunkLen).length :=
      utf8ByteSize_ascii fun c member => ascii c (List.mem_of_mem_take member)
    have rest : (text.drop chunkLen).length = text.length - chunkLen := List.length_drop
    have count : text.length / chunkLen = (text.drop chunkLen).length / chunkLen + 1 := by
      rw [rest]
      exact Nat.div_eq_sub_div (by decide) (Nat.le_of_not_lt full)
    have multiple : chunkLen % 4 = 0 := rfl
    have whole : String.ofList (text.take chunkLen) ++ String.ofList (text.drop chunkLen) = String.ofList text := by
      rw [← String.ofList_append, List.take_append_drop]
    rw [pieces, if_neg full, count, List.replicate_succ]
    simp only [pushAll, List.cons_append]
    rw [pushChunk_full (ofList_ne_marker (by rw [length]; rfl)) (by omega) (by omega)]
    have later := @ih (fun c member => ascii c (List.mem_of_mem_drop member)) (by omega)
      { sasl with buffer := sasl.buffer ++ String.ofList (text.take chunkLen) }
      (by rw [String.utf8ByteSize_append]; omega) (by rw [String.append_assoc, whole]; exact decoded)
    rw [later]

/-! ## Every sequence of chunks -/

theorem unended_concat {chunks : List String} {results : List ChunkResult} (same : results.length = chunks.length)
    (chunk : String) (result : ChunkResult) :
    unended (chunks ++ [chunk]) (results ++ [result]) =
      if result = .needMore then unended chunks results ++ [chunk] else [] := by
  have zipped : (chunks ++ [chunk]).zip (results ++ [result]) = chunks.zip results ++ [(chunk, result)] := by
    rw [List.zip_append same.symm]
    rfl
  rw [unended, zipped, List.rtakeWhile_concat]
  by_cases kept : result = .needMore
  · simp [kept, unended]
  · simp [kept]

theorem joinChunks_concat (chunks : List String) (chunk : String) :
    joinChunks (chunks ++ [chunk]) = joinChunks chunks ++ chunkText chunk := by
  simp [joinChunks, String.join_append]

/-- The buffer holds the chunks of the response that is not complete. -/
theorem feedAll_buffer {sasl : SaslSession} (empty : sasl.buffer = "") (chunks : List String) :
    (pushAll (feed crypto) sasl chunks).1.buffer =
      joinChunks (unended chunks (pushAll (feed crypto) sasl chunks).2) := by
  induction chunks using List.reverseRecOn with
  | nil => exact empty
  | append_singleton chunks chunk ih =>
    rw [pushAll_concat, unended_concat (pushAll_length sasl chunks)]
    rcases @feed_spec crypto (pushAll (feed crypto) sasl chunks).1 chunk with
      ⟨more, kept⟩ | ⟨terminal, cleared, -⟩
    · rw [if_pos more, kept, ih, joinChunks_concat]
    · rw [if_neg terminal, cleared]
      rfl

theorem pushAll_bounded {sasl : SaslSession} (bounded : sasl.buffer.utf8ByteSize ≤ maxSaslLen)
    (chunks : List String) : (pushAll (pushChunk crypto) sasl chunks).1.buffer.utf8ByteSize ≤ maxSaslLen := by
  induction chunks generalizing sasl with
  | nil => exact bounded
  | cons chunk rest ih => exact ih (pushChunk_bounded bounded chunk)

theorem feedAll_bounded {sasl : SaslSession} (bounded : sasl.buffer.utf8ByteSize ≤ maxSaslLen)
    (chunks : List String) : (pushAll (feed crypto) sasl chunks).1.buffer.utf8ByteSize ≤ maxSaslLen := by
  induction chunks generalizing sasl with
  | nil => exact bounded
  | cons chunk rest ih =>
    have kept := @pushChunk_bounded crypto _ bounded chunk
    refine ih (?_ : (sasl.feed crypto chunk).1.buffer.utf8ByteSize ≤ maxSaslLen)
    simp only [feed]
    split
    · exact Nat.zero_le _
    · exact kept

/-- A payload that is sent in pieces is read back.  Whatever is sent, the text never exceeds the limit, and a
response that is completed is the text of the chunks since the last response that was completed or refused. -/
theorem chunks_reassemble (engine : Base64.Standard crypto.encodeBase64 crypto.decodeBase64) {sasl : SaslSession}
    (empty : sasl.buffer = "") :
    (∀ payload, (crypto.encodeBase64 payload).toList.length ≤ maxSaslLen →
      let sent := pieces (crypto.encodeBase64 payload).toList
      pushAll (pushChunk crypto) sasl sent =
        (sasl, List.replicate (sent.length - 1) .needMore ++ [.complete payload])) ∧
      (∀ chunks, (pushAll (pushChunk crypto) sasl chunks).1.buffer.utf8ByteSize ≤ maxSaslLen) ∧
      ∀ chunks, let (fed, results) := pushAll (feed crypto) sasl chunks
        fed.buffer.utf8ByteSize ≤ maxSaslLen ∧ ∀ chunk data, (fed.feed crypto chunk).2 = .complete data →
          crypto.decodeBase64 (joinChunks (unended chunks results ++ [chunk])) = some data := by
  have bounded : sasl.buffer.utf8ByteSize ≤ maxSaslLen := by
    rw [empty]
    exact Nat.zero_le _
  refine ⟨fun payload short => ?_, pushAll_bounded bounded, fun chunks => ⟨feedAll_bounded bounded chunks, ?_⟩⟩
  · -- no chunk of a base64 text is mistaken for the marker, as all have a multiple of four
    have aligned : (crypto.encodeBase64 payload).toList.length % 4 = 0 := by
      rw [engine.length]
      exact Nat.mul_mod_right 4 _
    have decoded : crypto.decodeBase64 (sasl.buffer ++ String.ofList (crypto.encodeBase64 payload).toList) =
        some payload := by
      rw [empty, String.empty_append, String.ofList_toList, engine.roundTrip]
    have fits : sasl.buffer.utf8ByteSize + (crypto.encodeBase64 payload).toList.length ≤ maxSaslLen := by
      rw [empty]
      exact (Nat.zero_add _).trans_le short
    have sent := pushAll_pieces (engine.ascii payload) aligned fits decoded
    have count := @pushAll_length (pushChunk crypto) sasl (pieces (crypto.encodeBase64 payload).toList)
    rw [sent, List.length_append, List.length_replicate, List.length_singleton] at count
    simp only [sent, ← count, Nat.add_sub_cancel]
    rw [← empty]
  · intro chunk data completed
    rcases @feed_spec crypto (pushAll (feed crypto) sasl chunks).1 chunk with ⟨more, -⟩ | ⟨-, -, decoded⟩
    · rw [completed] at more
      cases more
    · rw [joinChunks_concat, ← feedAll_buffer empty]
      exact decoded data completed

/-- Credentials are never right, and base64 is the standard one. -/
def plainCrypto : Crypto where
  argon2 _ _ := false
  hmac _ _ := []
  sha256 data := data
  encodeBase64 := Base64.encode
  decodeBase64 := Base64.decode

theorem chunks_reassemble_plain :
    (∀ payload, (Base64.encode payload).toList.length ≤ maxSaslLen →
      let sent := pieces (Base64.encode payload).toList
      pushAll (pushChunk plainCrypto) {} sent =
        ({}, List.replicate (sent.length - 1) .needMore ++ [.complete payload])) ∧
      (∀ chunks, (pushAll (pushChunk plainCrypto) {} chunks).1.buffer.utf8ByteSize ≤ maxSaslLen) ∧
      ∀ chunks, let (fed, results) := pushAll (feed plainCrypto) {} chunks
        fed.buffer.utf8ByteSize ≤ maxSaslLen ∧ ∀ chunk data, (fed.feed plainCrypto chunk).2 = .complete data →
          Base64.decode (joinChunks (unended chunks results ++ [chunk])) = some data :=
  @chunks_reassemble plainCrypto Base64.standard {} rfl

theorem encode_zeros (count : Nat) :
    Base64.encodeChars (List.replicate (3 * count) 0) = List.replicate (4 * count) 'A' := by
  induction count with
  | zero => rfl
  | succ count ih =>
    rw [Nat.mul_succ, Nat.mul_succ]
    simp only [List.replicate_succ, Base64.encodeChars, ih]
    rfl

/-- `A`, so many times. -/
def manyA (count : Nat) : String :=
  String.ofList (List.replicate count 'A')

theorem manyA_size (count : Nat) : (manyA count).utf8ByteSize = count := by
  rw [manyA, utf8ByteSize_ascii fun c member => by rw [List.eq_of_mem_replicate member]; decide,
    List.length_replicate]

theorem manyA_ne_marker (count : Nat) : manyA (4 * count) ≠ "+" :=
  ofList_ne_marker (by rw [List.length_replicate]; exact Nat.mul_mod_right 4 count)

theorem refused_run {kept excess : Nat} (full : chunkLen ≤ 4 * kept) (room : 4 * kept + 4 ≤ maxSaslLen)
    (exceeds : maxSaslLen < 4 * kept + 4 * excess) :
    pushAll (pushChunk plainCrypto) {} [manyA (4 * kept), manyA (4 * excess)] =
        ({ buffer := manyA (4 * kept) }, [.needMore, .invalid]) ∧
      (pushChunk plainCrypto { buffer := manyA (4 * kept) } "AAAA").2 =
        .complete (List.replicate (3 * (kept + 1)) 0) := by
  have first : pushChunk plainCrypto {} (manyA (4 * kept)) = ({ buffer := manyA (4 * kept) }, .needMore) := by
    have fits : "".utf8ByteSize + (manyA (4 * kept)).utf8ByteSize ≤ maxSaslLen := by
      rw [manyA_size, String.utf8ByteSize_empty]
      omega
    rw [pushChunk_full (manyA_ne_marker kept) (by rw [manyA_size]; exact full) fits, String.empty_append]
  have second : pushChunk plainCrypto { buffer := manyA (4 * kept) } (manyA (4 * excess)) =
      ({ buffer := manyA (4 * kept) }, .invalid) :=
    if_pos ⟨manyA_ne_marker excess, by rw [manyA_size, manyA_size]; exact exceeds⟩
  have text : manyA (4 * kept) ++ chunkText "AAAA" = Base64.encode (List.replicate (3 * (kept + 1)) 0) := by
    rw [Base64.encode, encode_zeros, show chunkText "AAAA" = String.ofList (List.replicate 4 'A') from rfl, manyA,
      ← String.ofList_append, List.replicate_append_replicate, Nat.mul_succ]
  refine ⟨by simp only [pushAll, first, second], ?_⟩
  refine congrArg Prod.snd (pushChunk_last (.inr (by decide)) ?_ ?_)
  · rw [manyA_size]
    exact room
  · rw [text]
    exact Base64.standard.roundTrip _

/-- A chunk that is refused for its length leaves what came before it in the buffer: after 400 characters and
7796 that are too many, `AAAA` completes a response of 404. -/
theorem refused_chunk_keeps_buffer : ¬ ∀ chunks chunk data,
    ((pushAll (pushChunk plainCrypto) {} chunks).1.pushChunk plainCrypto chunk).2 = .complete data →
      Base64.decode (joinChunks (unended chunks (pushAll (pushChunk plainCrypto) {} chunks).2 ++ [chunk])) =
        some data := by
  intro sinceLast
  obtain ⟨run, completed⟩ := @refused_run 100 1949 (by decide) (by decide) (by decide)
  have claimed := sinceLast _ "AAAA" (List.replicate (3 * (100 + 1)) 0) (by rw [run]; exact completed)
  rw [run, show unended [manyA (4 * 100), manyA (4 * 1949)] [.needMore, .invalid] = [] from
    @unended_concat [manyA (4 * 100)] [.needMore] rfl (manyA (4 * 1949)) .invalid] at claimed
  have short : Base64.decode (joinChunks ([] ++ ["AAAA"])) = some [0, 0, 0] := by decide
  have same := congrArg List.length (Option.some.inj (short.symm.trans claimed))
  rw [List.length_replicate] at same
  exact absurd same (by decide)

end SaslSession

end Ferrixd
