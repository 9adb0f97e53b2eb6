import Ferrixd.Codec
import Mathlib.Data.List.TakeWhile

/-! # Framing and segmentation

A stream arrives in chunks.  After each chunk the decoder is called until it returns no further line
or fails.  The lines do not depend on the chunks, unless a line of exactly the cap ends in CRLF. -/

namespace Ferrixd

/-- The lines of a buffer, and what is left in it if the decoder did not fail. -/
def drain (maxLine : Nat) (src : Bytes) : List Bytes × Option Bytes :=
  match _decoded : decode maxLine src with
  | .line line rest => (line :: (drain maxLine rest).1, (drain maxLine rest).2)
  | .incomplete => ([], some src)
  | .tooLong => ([], none)
termination_by src.length
decreasing_by all_goals exact decode_rest_lt _decoded

/-- Append chunk after chunk to the buffer, draining it in between. -/
def feed (maxLine : Nat) (buffer : Bytes) : List Bytes → List Bytes × Option Bytes
  | [] => ([], some buffer)
  | chunk :: chunks =>
    match drain maxLine (buffer ++ chunk) with
    | (lines, none) => (lines, none)
    | (lines, some left) => (lines ++ (feed maxLine left chunks).1, (feed maxLine left chunks).2)

/-! ## One line at a time -/

variable {maxLine : Nat} {raw src a b : Bytes}

/-- A stream has no newline, or a first line. -/
theorem stream_induction {P : Bytes → Prop} (unfinished : ∀ src, newline ∉ src → P src)
    (terminated : ∀ raw rest, newline ∉ raw → P rest → P (raw ++ newline :: rest)) (src : Bytes) : P src := by
  by_cases member : newline ∈ src
  · obtain ⟨raw, rest, shape, clean⟩ := List.eq_append_cons_of_mem member
    rw [shape]
    exact terminated raw rest clean (stream_induction unfinished terminated rest)
  · exact unfinished src member
termination_by src.length
decreasing_by
  rw [shape, List.length_append, List.length_cons]
  omega

theorem scan_clean (clean : newline ∉ raw) : ∀ byte ∈ raw, (byte != newline) = true := by
  intro byte member
  rw [bne_iff_ne]
  rintro rfl
  exact clean member

theorem drain_open (clean : newline ∉ src) :
    drain maxLine src = ([], if src.length > maxLine then none else some src) := by
  have dropped : src.dropWhile (fun b => b != newline) = [] :=
    List.dropWhile_eq_nil_iff.mpr (scan_clean clean)
  have decoded : decode maxLine src = if src.length > maxLine then .tooLong else .incomplete := by
    rw [decode, dropped]
  rw [drain]
  split at decoded
  · rename_i long
    rw [if_pos long]
    split <;> simp_all
  · rename_i short
    rw [if_neg short]
    split <;> simp_all

theorem decode_terminated (clean : newline ∉ raw) (rest : Bytes) :
    decode maxLine (raw ++ newline :: rest) =
      if (stripCr raw).length > maxLine then .tooLong else .line (stripCr raw) rest := by
  rw [decode, List.dropWhile_append_of_pos (scan_clean clean), List.takeWhile_append_of_pos (scan_clean clean),
    List.dropWhile_cons_of_neg (by decide), List.takeWhile_cons_of_neg (by decide), List.append_nil]

theorem drain_terminated (clean : newline ∉ raw) (rest : Bytes) :
    drain maxLine (raw ++ newline :: rest) =
      if (stripCr raw).length > maxLine then ([], none)
      else (stripCr raw :: (drain maxLine rest).1, (drain maxLine rest).2) := by
  have decoded : decode maxLine (raw ++ newline :: rest) = _ := decode_terminated clean rest
  rw [drain]
  split at decoded
  · rename_i long
    rw [if_pos long]
    split <;> simp_all
  · rename_i short
    rw [if_neg short]
    split <;> simp_all

/-- A line that is longer than the cap only by its CR. -/
theorem stripCr_short (long : raw.length > maxLine) (fits : ¬ (stripCr raw).length > maxLine) :
    ∃ line, raw = line ++ [carriageReturn] ∧ line.length = maxLine := by
  rw [stripCr] at fits
  split at fits
  · rename_i last
    obtain ⟨line, rfl⟩ := List.getLast?_eq_some_iff.mp last
    rw [List.dropLast_concat] at fits
    rw [List.length_append, List.length_singleton] at long
    exact ⟨line, rfl, by omega⟩
  · exact absurd long fits

/-! ## Lines of exactly the cap -/

/-- Some line of the stream has exactly `maxLine` bytes before its CRLF, after lines that are all
within the cap. -/
def CrAtCap (maxLine : Nat) (stream : Bytes) : Prop :=
  ∃ before line rest, stream.splitOn newline = before ++ (line ++ [carriageReturn]) :: rest ∧ rest ≠ [] ∧
    (∀ raw ∈ before, (stripCr raw).length ≤ maxLine) ∧ line.length = maxLine

theorem splitOn_terminated (clean : newline ∉ raw) (rest : Bytes) :
    (raw ++ newline :: rest).splitOn newline = raw :: rest.splitOn newline :=
  List.splitOn_append_cons_self_of_not_mem clean rest

theorem not_crAtCap_open (clean : newline ∉ src) : ¬ CrAtCap maxLine src := by
  rintro ⟨before, line, rest, split, more, -, -⟩
  have single : src.splitOn newline = [src] := List.splitOn_eq_singleton clean
  rw [single] at split
  have lengths := congrArg List.length split
  simp only [List.length_append, List.length_cons, List.length_nil] at lengths
  have : 0 < rest.length := List.length_pos_of_ne_nil more
  omega

theorem crAtCap_terminated (clean : newline ∉ raw) (rest : Bytes) :
    CrAtCap maxLine (raw ++ newline :: rest) ↔
      (∃ line, raw = line ++ [carriageReturn] ∧ line.length = maxLine) ∨
        ((stripCr raw).length ≤ maxLine ∧ CrAtCap maxLine rest) := by
  rw [CrAtCap, splitOn_terminated clean]
  constructor
  · rintro ⟨before, line, after, split, more, fits, isCap⟩
    cases before with
    | nil =>
      rw [List.nil_append, List.cons.injEq] at split
      exact .inl ⟨line, split.1, isCap⟩
    | cons first before =>
      rw [List.cons_append, List.cons.injEq] at split
      obtain ⟨rfl, split⟩ := split
      refine .inr ⟨fits raw List.mem_cons_self, before, line, after, split, more, ?_, isCap⟩
      exact fun other member => fits other (List.mem_cons_of_mem _ member)
  · rintro (⟨line, rfl, isCap⟩ | ⟨fits, before, line, after, split, more, others, isCap⟩)
    · exact ⟨[], line, _, rfl, List.splitOn_ne_nil _ _, fun _ => nofun, isCap⟩
    · refine ⟨raw :: before, line, after, by rw [split, List.cons_append], more, ?_, isCap⟩
      intro other member
      rcases List.mem_cons.mp member with rfl | member
      · exact fits
      · exact others other member

/-! ## Draining in parts -/

/-- What is left after draining is one unfinished line within the cap. -/
theorem drain_left : ∀ {left : Bytes}, (drain maxLine src).2 = some left → drain maxLine left = ([], some left) := by
  induction src using stream_induction with
  | unfinished src clean =>
    intro left drained
    rw [drain_open clean] at drained
    dsimp only at drained
    split at drained
    · cases drained
    · rename_i short
      cases drained
      rw [drain_open clean, if_neg short]
  | terminated raw rest clean ih =>
    intro left drained
    rw [drain_terminated clean] at drained
    split at drained
    · cases drained
    · exact ih drained

/-- A line that is over the cap before it is complete stays over the cap, unless it needs its CR for that. -/
theorem drain_over (clean : newline ∉ a) (long : a.length > maxLine) (notAtCap : ¬ CrAtCap maxLine (a ++ b)) :
    drain maxLine (a ++ b) = ([], none) := by
  by_cases member : newline ∈ b
  · obtain ⟨raw, rest, rfl, rawClean⟩ := List.eq_append_cons_of_mem member
    have wholeClean : newline ∉ a ++ raw := by
      rw [List.mem_append]
      exact not_or.mpr ⟨clean, rawClean⟩
    rw [← List.append_assoc] at notAtCap ⊢
    rw [crAtCap_terminated wholeClean, not_or] at notAtCap
    rw [drain_terminated wholeClean, if_pos]
    by_contra fits
    refine notAtCap.1 (stripCr_short ?_ fits)
    rw [List.length_append]
    omega
  · have wholeClean : newline ∉ a ++ b := by
      rw [List.mem_append]
      exact not_or.mpr ⟨clean, member⟩
    rw [drain_open wholeClean, if_pos]
    rw [List.length_append]
    omega

/-- Draining a stream is draining its first part and then what is left with the second part. -/
theorem drain_append (b : Bytes) : ¬ CrAtCap maxLine (a ++ b) →
    drain maxLine (a ++ b) =
      match drain maxLine a with
      | (lines, none) => (lines, none)
      | (lines, some left) => (lines ++ (drain maxLine (left ++ b)).1, (drain maxLine (left ++ b)).2) := by
  induction a using stream_induction with
  | unfinished a clean =>
    intro notAtCap
    rw [drain_open clean]
    by_cases long : a.length > maxLine
    · rw [if_pos long]
      exact drain_over clean long notAtCap
    · rw [if_neg long]
      rfl
  | terminated raw rest clean ih =>
    intro notAtCap
    rw [List.append_assoc, List.cons_append, crAtCap_terminated clean, not_or] at notAtCap
    rw [List.append_assoc, List.cons_append, drain_terminated clean, drain_terminated clean]
    -- a line that is too long ends the stream, in one piece or two
    by_cases long : (stripCr raw).length > maxLine
    · rw [if_pos long, if_pos long]
    · rw [if_neg long, if_neg long, ih fun atCap => notAtCap.2 ⟨by omega, atCap⟩]
      cases drain maxLine rest with
      | mk lines left =>
        cases left with
        | none => rfl
        | some left => rfl

/-- A line at the cap in what is left and what follows is one in the whole stream. -/
theorem crAtCap_of_left {left : Bytes} (drained : (drain maxLine a).2 = some left) :
    CrAtCap maxLine (left ++ b) → CrAtCap maxLine (a ++ b) := by
  induction a using stream_induction with
  | unfinished a clean =>
    rw [drain_open clean] at drained
    dsimp only at drained
    split at drained
    · cases drained
    · cases drained
      exact id
  | terminated raw rest clean ih =>
    intro atCap
    rw [drain_terminated clean] at drained
    split at drained
    · cases drained
    · rename_i fits
      rw [List.append_assoc, List.cons_append, crAtCap_terminated clean]
      exact .inr ⟨by omega, ih drained atCap⟩

theorem feed_eq_drain (chunks : List Bytes) : ∀ {buffer : Bytes}, drain maxLine buffer = ([], some buffer) →
    ¬ CrAtCap maxLine (buffer ++ chunks.flatten) →
    feed maxLine buffer chunks = drain maxLine (buffer ++ chunks.flatten) := by
  induction chunks with
  | nil =>
    intro buffer unfinished _
    rw [feed, List.flatten_nil, List.append_nil, unfinished]
  | cons chunk chunks ih =>
    intro buffer _ notAtCap
    rw [List.flatten_cons, ← List.append_assoc] at notAtCap ⊢
    rw [feed, drain_append _ notAtCap]
    cases drained : drain maxLine (buffer ++ chunk) with
    | mk lines left =>
      cases left with
      | none => rfl
      | some left =>
        have isLeft : (drain maxLine (buffer ++ chunk)).2 = some left := by rw [drained]
        have rest := ih (drain_left isLeft) fun atCap => notAtCap (crAtCap_of_left isLeft atCap)
        dsimp only
        rw [rest]

theorem feed_whole (stream : Bytes) : feed maxLine [] [stream] = drain maxLine stream := by
  rw [feed, List.nil_append]
  cases drain maxLine stream with
  | mk lines left =>
    cases left with
    | none => rfl
    | some left => simp [feed]

/-- Cut before the newline, a line at the cap is lost. -/
theorem exists_losing_cut {stream : Bytes} : CrAtCap maxLine stream →
    ∃ a b, a ++ b = stream ∧ (drain maxLine a).2 = none ∧
      (drain maxLine a).1.length < (drain maxLine stream).1.length := by
  induction stream using stream_induction with
  | unfinished stream clean => exact fun atCap => absurd atCap (not_crAtCap_open clean)
  | terminated raw rest clean ih =>
    intro atCap
    obtain ⟨line, rfl, isCap⟩ | ⟨fits, later⟩ := (crAtCap_terminated clean rest).mp atCap
    · have exceeds : (line ++ [carriageReturn]).length > maxLine := by
        rw [List.length_append, List.length_singleton]
        omega
      have stripped : stripCr (line ++ [carriageReturn]) = line := by
        rw [stripCr, if_pos List.getLast?_concat, List.dropLast_concat]
      refine ⟨line ++ [carriageReturn], newline :: rest, rfl, ?_, ?_⟩
      · rw [drain_open clean, if_pos exceeds]
      · have fits : ¬ line.length > maxLine := by omega
        rw [drain_open clean, drain_terminated clean, stripped, if_neg fits]
        simp
    · obtain ⟨a, b, rfl, fails, fewer⟩ := ih later
      refine ⟨raw ++ newline :: a, b, by simp, ?_, ?_⟩
      · rw [drain_terminated clean, if_neg (by omega)]
        exact fails
      · rw [drain_terminated clean, drain_terminated clean, if_neg (by omega), if_neg (by omega)]
        simpa using fewer

/-- However a stream is cut into chunks, its lines and the point of failure are the same, exactly if no
line at the cap ends in CRLF. -/
theorem feed_segments (maxLine : Nat) (stream : Bytes) :
    (∀ chunks : List Bytes, chunks.flatten = stream → feed maxLine [] chunks = feed maxLine [] [stream]) ↔
      ¬ CrAtCap maxLine stream := by
  constructor
  · intro same atCap
    obtain ⟨a, b, rfl, fails, fewer⟩ := exists_losing_cut atCap
    have cut := same [a, b] (by simp)
    rw [feed_whole, feed, List.nil_append] at cut
    cases drained : drain maxLine a with
    | mk lines left =>
      rw [drained] at cut fails fewer
      cases fails
      dsimp only at cut fewer
      rw [← cut] at fewer
      exact absurd fewer (Nat.lt_irrefl _)
  · rintro notAtCap chunks rfl
    have start : drain maxLine [] = ([], some []) := by
      rw [drain_open List.not_mem_nil, if_neg (by simp)]
    rw [feed_whole, feed_eq_drain chunks start (by rwa [List.nil_append]), List.nil_append]

/-- With a cap of four bytes, `PING` CRLF is a line when it arrives at once, and a failure when its LF
arrives later. -/
theorem split_crlf_fails :
    ¬ ∀ (maxLine : Nat) (chunks : List Bytes),
      feed maxLine [] chunks = feed maxLine [] [chunks.flatten] := by
  intro same
  have ping := same 4 [[0x50, 0x49, 0x4e, 0x47, 0x0d], [0x0a]]
  have whole : drain 4 [0x50, 0x49, 0x4e, 0x47, 0x0d, 0x0a] = ([[0x50, 0x49, 0x4e, 0x47]], some []) := by
    have clean : newline ∉ ([0x50, 0x49, 0x4e, 0x47, 0x0d] : Bytes) := by decide
    have terminated : drain 4 ([0x50, 0x49, 0x4e, 0x47, 0x0d] ++ newline :: []) = _ := drain_terminated clean []
    rw [drain_open List.not_mem_nil] at terminated
    exact terminated
  have part : drain 4 [0x50, 0x49, 0x4e, 0x47, 0x0d] = ([], none) := by
    have clean : newline ∉ ([0x50, 0x49, 0x4e, 0x47, 0x0d] : Bytes) := by decide
    exact drain_open clean
  rw [feed_whole, feed, List.nil_append, part] at ping
  exact absurd (ping.trans whole) (by decide)

end Ferrixd
