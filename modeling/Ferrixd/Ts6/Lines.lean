import Ferrixd.Encode
import Ferrixd.Ts6.Aliases

/-! # Lines with a source

A line of a TS6 link names whom it is from.  Within the body budget, the parser gives back its parts. -/

namespace Ferrixd

open Protocol

/-- The parts of a line with a source. -/
structure Sourced where
  source : String
  frame : Frame

namespace Sourced

def line (sourced : Sourced) : Line :=
  let line := sourced.frame.middles.foldl Line.param ((Line.server sourced.source).command sourced.frame.verb)
  match sourced.frame.trailing with
  | some text => line.trailing text
  | none => line

/-- The size of the line without its terminator. -/
def size (sourced : Sourced) : Nat :=
  (utf8 sourced.line.buf).length

structure Valid (sourced : Sourced) : Prop where
  source : Middle sourced.source
  frame : sourced.frame.Valid

/-- The parser accepts the line, though it may divide it into other fields. -/
structure Legible (sourced : Sourced) : Prop where
  source : Middle sourced.source
  verb : sourced.frame.verb.toList ≠ [] ∧ sourced.frame.verb.toList.all Char.isAlpha = true
  middles : ∀ field ∈ sourced.frame.middles, Trailing field
  trailing : ∀ field ∈ sourced.frame.trailing, Trailing field

variable {sourced : Sourced}

theorem Valid.legible (valid : sourced.Valid) : sourced.Legible :=
  ⟨valid.source, valid.frame.verb, fun field member => trailing_of_middle (valid.frame.middles field member),
    valid.frame.trailing⟩

theorem line_bytes (sourced : Sourced) :
    utf8 sourced.line.buf = colon :: (utf8 sourced.source ++ space :: (utf8 sourced.frame.verb ++
      paramBytes sourced.frame.middles sourced.frame.trailing)) := by
  have lead : utf8 ((Line.server sourced.source).command sourced.frame.verb).buf =
      colon :: (utf8 sourced.source ++ space :: utf8 sourced.frame.verb) := by
    rw [Line.command, Line.server, utf8_append, utf8_append, utf8_append]
    simp only [List.append_assoc]
    rfl
  have whole := utf8_params sourced.frame.middles sourced.frame.trailing
    ((Line.server sourced.source).command sourced.frame.verb)
  rw [lead, List.cons_append, List.append_assoc, List.cons_append] at whole
  exact whole

theorem Legible.clean (legible : sourced.Legible) : Clean (utf8 sourced.line.buf) := by
  intro b member
  obtain ⟨first, rest, shape, -, clean⟩ := legible.source.bytes
  rw [sourced.line_bytes] at member
  simp only [List.mem_cons, List.mem_append] at member
  rcases member with rfl | member | rfl | member | member
  · decide
  · exact (clean b (shape ▸ member)).2
  · decide
  · obtain ⟨-, -, -, notNul, notCr, notLf, -⟩ := alphabetic_ne (alpha_utf8 legible.verb.2 b member)
    exact ⟨notNul, notCr, notLf⟩
  · exact paramBytes_clean legible.middles legible.trailing b member

theorem Legible.parseSourcePart (legible : sourced.Legible) :
    parseSourcePart (utf8 sourced.line.buf) = do
      let source ← parseSource (utf8 sourced.source)
      return (some source, utf8 sourced.frame.verb ++ paramBytes sourced.frame.middles sourced.frame.trailing) := by
  obtain ⟨first, rest, shape, -, solid⟩ := legible.source.bytes
  obtain ⟨letter, more, verb⟩ := List.exists_cons_of_ne_nil (utf8_ne_nil legible.verb.1)
  have alphabetic := alphabetic_ne (alpha_utf8 legible.verb.2 letter (verb ▸ List.mem_cons_self))
  have lead : utf8 sourced.line.buf = 0x3a :: (utf8 sourced.source ++ space :: (utf8 sourced.frame.verb ++
      paramBytes sourced.frame.middles sourced.frame.trailing)) := sourced.line_bytes
  obtain ⟨tokenEq, afterEq⟩ := token_of_solid (fun b member => (solid b (shape ▸ member)).1)
    (utf8 sourced.frame.verb ++ paramBytes sourced.frame.middles sourced.frame.trailing)
  have spaced : (utf8 sourced.source ++ space :: (utf8 sourced.frame.verb ++
      paramBytes sourced.frame.middles sourced.frame.trailing)).contains space = true := by simp
  have named : (utf8 sourced.source).isEmpty = false := by rw [shape]; rfl
  have head : ∀ lead ∈ (utf8 sourced.frame.verb ++
      paramBytes sourced.frame.middles sourced.frame.trailing).head?, lead ≠ space := by
    rw [verb]
    rintro _ ⟨⟩
    exact alphabetic.1
  have followed : (utf8 sourced.frame.verb ++
      paramBytes sourced.frame.middles sourced.frame.trailing).isEmpty = false := by rw [verb]; rfl
  rw [lead, Protocol.parseSourcePart, spaced, tokenEq, named, afterEq, skipSpaces_space head]
  simp only [followed]
  rfl

/-- The parser finds the source and the verb, and divides the rest as it will. -/
theorem Legible.parse (legible : sourced.Legible) :
    Message.parse sourced.line.build =
      if rfc1459BodyBytes < sourced.size then .error (.bodyTooLong rfc1459BodyBytes)
      else do
        let source ← parseSource (utf8 sourced.source)
        let params ← parseParams (paramBytes sourced.frame.middles sourced.frame.trailing)
        return ⟨[], some source, .named sourced.frame.verb, params⟩ := by
  have clean := legible.clean
  have build : sourced.line.build = utf8 sourced.line.buf ++ [0x0d, 0x0a] := by
    rw [Line.build, utf8_append]
    rfl
  have stripped : stripLineTerminators sourced.line.build = utf8 sourced.line.buf := by
    rw [build]
    exact (stripLineTerminators_crlf fun b member => (clean b member).2).2
  have notEmpty : (utf8 sourced.line.buf).isEmpty = false := by
    rw [sourced.line_bytes]
    rfl
  have legal : (utf8 sourced.line.buf).any (fun b => b == 0x00 || b == 0x0d || b == 0x0a) = false := by
    rw [List.any_eq_false]
    intro b member
    obtain ⟨notNul, notCr, notLf⟩ := clean b member
    simp [notNul, notCr, notLf]
  -- the line begins with the colon of its source
  have noTags : parseTagPart (utf8 sourced.line.buf) Limits.ircv3 = .ok ([], utf8 sourced.line.buf) := by
    rw [sourced.line_bytes]
    rfl
  have letters := alpha_utf8 legible.verb.2
  obtain ⟨verbToken, verbAfter⟩ := token_paramBytes
    (fun b member => (alphabetic_ne (letters b member)).1) sourced.frame.middles sourced.frame.trailing
  rw [Message.parse, Protocol.parse]
  dsimp only
  rw [stripped, notEmpty, legal, noTags]
  simp only [Bool.false_eq_true, if_false, bind, Except.bind]
  by_cases long : rfc1459BodyBytes < sourced.size
  · have beyond : (utf8 sourced.line.buf).length > Limits.ircv3.maxBodyBytes := long
    rw [if_pos beyond, if_pos long]
    rfl
  · have within : ¬ (utf8 sourced.line.buf).length > Limits.ircv3.maxBodyBytes := long
    rw [if_neg within, if_neg long, legible.parseSourcePart]
    cases parseSource (utf8 sourced.source) with
    | error => rfl
    | ok source =>
      simp only [bind, Except.bind, pure, Except.pure]
      rw [verbToken, verbAfter, parseCommand_verb legible.verb.1 legible.verb.2]

/-- A line parses to its parts, unless it is over the body budget. -/
theorem Valid.parse (valid : sourced.Valid) :
    Message.parse sourced.line.build =
      if rfc1459BodyBytes < sourced.size then .error (.bodyTooLong rfc1459BodyBytes)
      else do
        let source ← parseSource (utf8 sourced.source)
        return ⟨[], some source, .named sourced.frame.verb, sourced.frame.params⟩ := by
  rw [valid.legible.parse, parseParams_paramBytes _ _ valid.frame.middles]
  rfl

end Sourced

/-- A source without the signs of a mask is read as it stands. -/
theorem parseSource_plain {name : String} (nonempty : utf8 name ≠ [])
    (plain : ∀ b ∈ utf8 name, b ≠ 0x21 ∧ b ≠ 0x40) : parseSource (utf8 name) = .ok ⟨name, none, none⟩ := by
  have unhosted : splitByte 0x40 (utf8 name) = (utf8 name, none) := by
    have whole := splitByte_append (fun b member => (plain b member).2) none
    simpa using whole
  have unnamed : splitByte 0x21 (utf8 name) = (utf8 name, none) := by
    have whole := splitByte_append (fun b member => (plain b member).1) none
    simpa using whole
  have named : (utf8 name).isEmpty = false := by simpa using nonempty
  rw [parseSource, unhosted]
  dsimp only
  rw [unnamed]
  dsimp only
  rw [named, strField_utf8]
  rfl

theorem Ts6Word.parseSource {name : String} (word : Ts6Word name) : parseSource (utf8 name) = .ok ⟨name, none, none⟩ := by
  refine parseSource_plain (utf8_ne_nil word.nonempty) fun b member => ⟨?_, ?_⟩
  · rintro rfl
    exact word.ne (ascii_mem_utf8 member (by decide)) (by decide) rfl
  · rintro rfl
    exact word.ne (ascii_mem_utf8 member (by decide)) (by decide) rfl

end Ferrixd
