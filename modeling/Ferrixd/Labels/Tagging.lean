import Ferrixd.Labels

/-! # Tagging rendered lines

A tag in front of a rendered line is one more tag of the message, as long as the tag section stays
within its budget. -/

namespace Ferrixd

open Protocol

/-- A line with its terminator and no other. -/
def Ended (line : Bytes) : Prop :=
  ∃ body, line = body ++ [carriageReturn, newline] ∧ ∀ b ∈ body, b ≠ 0x0d ∧ b ≠ 0x0a

/-- A line that a handler renders: one line that is a message. -/
structure Renders (limits : Limits) (line : Bytes) (message : Message) : Prop where
  ended : Ended line
  parsed : parse line limits = .ok message

/-- A message with one more tag in front. -/
def Protocol.Message.tagged (message : Message) (tag : Tag) : Message :=
  { message with tags := tag :: message.tags }

/-- The bytes that the tags of a line take when another tag stands before them. -/
def tagSection (line : Bytes) : Nat :=
  match line with
  | 0x40 :: rest => 1 + (token rest).length
  | _ => 0

/-- Whether a tag and the tags a line has are within the budget. -/
def TagFits (limits : Limits) (tag : String) (line : Bytes) : Prop :=
  tag.utf8ByteSize + tagSection line ≤ limits.maxTagBytes

instance (limits : Limits) (tag : String) (line : Bytes) : Decidable (TagFits limits tag line) :=
  inferInstanceAs (Decidable (_ ≤ _))

variable {limits : Limits} {line buf : Bytes} {message : Message} {tag : Tag}

/-! ## The parser on a line without its terminator -/

/-- The parser after it has looked at the line as a whole. -/
def parseBody (buf : Bytes) (limits : Limits) : Except ParseError Message := do
  let (tags, body) ← parseTagPart buf limits
  if body.length > limits.maxBodyBytes then throw (.bodyTooLong limits.maxBodyBytes)
  let (source, rest) ← parseSourcePart body
  let command ← parseCommand (token rest)
  let params ← parseParams (afterToken rest)
  return { tags, source, command, params }

/-- What comes after the tags is read without changing them. -/
theorem parseBody_tags (parsed : parseBody buf limits = .ok message) :
    ∃ after, parseTagPart buf limits = .ok (message.tags, after) := by
  rw [parseBody] at parsed
  obtain ⟨⟨tags, after⟩, readTags, parsed⟩ := bind_ok parsed
  dsimp only at parsed
  split at parsed
  · cases parsed
  · obtain ⟨_, -, parsed⟩ := bind_ok parsed
    obtain ⟨_, -, parsed⟩ := bind_ok parsed
    obtain ⟨_, -, parsed⟩ := bind_ok parsed
    cases parsed
    exact ⟨after, readTags⟩

theorem parse_clean (nonempty : buf ≠ []) (clean : Clean buf) :
    parse (buf ++ [carriageReturn, newline]) limits = parseBody buf limits := by
  have stripped : stripLineTerminators (buf ++ [carriageReturn, newline]) = buf :=
    (stripLineTerminators_crlf fun b member => (clean b member).2).2
  have legal : buf.any (fun b => b == 0x00 || b == 0x0d || b == 0x0a) = false := by
    rw [List.any_eq_false]
    intro b member
    obtain ⟨nul, cr, lf⟩ := clean b member
    simp [nul, cr, lf]
  have filled : buf.isEmpty = false := by simpa using nonempty
  simp only [parse, stripped, filled, legal, Bool.false_eq_true, if_false]
  rfl

/-- What is parsed has bytes, and no control bytes. -/
theorem clean_of_parse (ended : ∀ b ∈ buf, b ≠ 0x0d ∧ b ≠ 0x0a)
    (parsed : parse (buf ++ [carriageReturn, newline]) limits = .ok message) : buf ≠ [] ∧ Clean buf := by
  have stripped : stripLineTerminators (buf ++ [carriageReturn, newline]) = buf :=
    (stripLineTerminators_crlf ended).2
  rw [parse] at parsed
  dsimp only at parsed
  rw [stripped] at parsed
  split at parsed
  · cases parsed
  · rename_i filled
    split at parsed
    · cases parsed
    · rename_i legal
      refine ⟨by simpa using filled, fun b member => ?_⟩
      have plain := List.any_eq_false.mp (Bool.eq_false_iff.mpr legal) b member
      simpa [not_or, and_assoc] using plain

theorem Renders.body (renders : Renders limits line message) :
    ∃ body, line = body ++ [carriageReturn, newline] ∧ body ≠ [] ∧ Clean body ∧
      parseBody body limits = .ok message := by
  obtain ⟨body, rfl, ended⟩ := renders.ended
  obtain ⟨nonempty, clean⟩ := clean_of_parse ended renders.parsed
  exact ⟨body, rfl, nonempty, clean, (parse_clean nonempty clean).symm.trans renders.parsed⟩

/-! ## One more tag -/

theorem parseTags_one (wellFormed : tag.WellFormed) : parseTags (utf8 tag.render) = .ok [tag] := by
  have one : parseTags (utf8 (renderTags [tag])) = .ok [tag] := parseTags_renderTags (by simp) (by simpa using wellFormed)
  rwa [renderTags] at one

theorem parseTags_more (wellFormed : tag.WellFormed) (bytes : Bytes) :
    parseTags (utf8 tag.render ++ 0x3b :: bytes) = (parseTags bytes).map fun tags => tag :: tags := by
  obtain ⟨⟨-, -, separator⟩, nonempty⟩ := wellFormed.render_clean
  have filled : (!(utf8 tag.render).isEmpty) = true := by simpa using nonempty
  rw [parseTags, List.splitOn_append_cons_self_of_not_mem separator,
    List.filter_cons_of_pos (p := fun raw : Bytes => !raw.isEmpty) filled, List.mapM_cons,
    parseTag_render wellFormed, parseTags]
  cases ((bytes.splitOn 0x3b).filter fun raw => !raw.isEmpty).mapM parseTag <;> rfl

/-- What is not tagged and parses does not begin with a space. -/
theorem parseBody_head (parsed : parseBody buf limits = .ok message) (untagged : buf.head? ≠ some 0x40) :
    buf.head? ≠ some space := by
  intro blank
  obtain ⟨rest, rfl⟩ := List.head?_eq_some_iff.mp blank
  have noTags : parseTagPart (space :: rest) limits = .ok ([], space :: rest) := rfl
  have noSource : parseSourcePart (space :: rest) = .ok (none, space :: rest) := rfl
  have noToken : token (space :: rest) = [] := List.takeWhile_cons_of_neg (by decide)
  rw [parseBody, noTags] at parsed
  simp only [bind, Except.bind] at parsed
  split at parsed
  · cases parsed
  · rw [noSource] at parsed
    simp only [noToken] at parsed
    cases parsed

theorem parseTagPart_more (wellFormed : tag.WellFormed) (rest : Bytes) {tags : List Tag} {after : Bytes}
    (parsed : parseTagPart (0x40 :: rest) limits = .ok (tags, after)) :
    parseTagPart (0x40 :: (utf8 tag.render ++ 0x3b :: rest)) limits =
      if TagFits limits tag.render (0x40 :: rest) then .ok (tag :: tags, after)
      else .error (.tagsTooLong limits.maxTagBytes) := by
  obtain ⟨⟨-, blank, -⟩, -⟩ := wellFormed.render_clean
  have scanned : ∀ b ∈ utf8 tag.render, (b != space) = true := by
    intro b member
    rw [bne_iff_ne]
    rintro rfl
    exact blank member
  have tokenEq : token (utf8 tag.render ++ 0x3b :: rest) = utf8 tag.render ++ 0x3b :: token rest := by
    rw [token, List.takeWhile_append_of_pos scanned, List.takeWhile_cons_of_pos (by decide)]
    rfl
  have afterEq : afterToken (utf8 tag.render ++ 0x3b :: rest) = afterToken rest := by
    rw [afterToken, List.dropWhile_append_of_pos scanned, List.dropWhile_cons_of_pos (by decide)]
    rfl
  have length : (utf8 tag.render ++ 0x3b :: token rest).length =
      tag.render.utf8ByteSize + tagSection (0x40 :: rest) := by
    rw [List.length_append, List.length_cons, utf8_length, tagSection]
    omega
  rw [parseTagPart] at parsed
  split at parsed
  · cases parsed
  · rename_i spaced
    -- the tag has no space, so the section ends where it did
    have spacedMore : (utf8 tag.render ++ 0x3b :: rest).contains space = true := by
      rw [Bool.not_eq_true', Bool.not_eq_false, List.contains_iff_mem] at spaced
      rw [List.contains_iff_mem]
      exact List.mem_append_right _ (List.mem_cons_of_mem _ spaced)
    rw [parseTagPart, spacedMore, tokenEq, afterEq, length]
    by_cases fits : TagFits limits tag.render (0x40 :: rest)
    · rw [if_pos fits, if_neg (by simp), if_neg (Nat.not_lt.mpr fits), parseTags_more wellFormed]
      split at parsed
      · cases parsed
      · obtain ⟨read, readTags, parsed⟩ := bind_ok parsed
        rw [readTags]
        dsimp only at parsed
        split at parsed
        · cases parsed
        · rename_i followed
          cases parsed
          simp only [Except.map, bind, Except.bind, if_neg followed]
          rfl
    · rw [if_neg fits, if_neg (by simp), if_pos (Nat.lt_of_not_le fits)]

theorem parseTagPart_first (wellFormed : tag.WellFormed) (nonempty : buf ≠ [])
    (solid : buf.head? ≠ some space) (untagged : buf.head? ≠ some 0x40) :
    parseTagPart (0x40 :: (utf8 tag.render ++ space :: buf)) limits =
      if TagFits limits tag.render buf then .ok ([tag], buf)
      else .error (.tagsTooLong limits.maxTagBytes) := by
  obtain ⟨⟨-, blank, -⟩, -⟩ := wellFormed.render_clean
  obtain ⟨tokenEq, afterEq⟩ := token_of_solid (fun b member same => blank (same ▸ member)) buf
  have spaced : (utf8 tag.render ++ space :: buf).contains space = true := by simp
  have followed : buf.isEmpty = false := by simpa using nonempty
  have skipped : skipSpaces (space :: buf) = buf := by
    refine skipSpaces_space fun first same blank => solid ?_
    rw [show buf.head? = some first from same, blank]
  -- the tag is the whole section
  have none : tagSection buf = 0 := by
    rw [tagSection]
    rintro rest rfl
    exact untagged rfl
  rw [parseTagPart, spaced, tokenEq, afterEq, utf8_length, skipped, parseTags_one wellFormed]
  by_cases fits : TagFits limits tag.render buf
  · have within : ¬ tag.render.utf8ByteSize > limits.maxTagBytes := by
      rw [TagFits, none] at fits
      omega
    rw [if_pos fits, if_neg (by simp), if_neg within]
    simp only [bind, Except.bind, followed]
    rfl
  · have beyond : tag.render.utf8ByteSize > limits.maxTagBytes := by
      rw [TagFits, none] at fits
      omega
    rw [if_neg fits, if_neg (by simp), if_pos beyond]

/-! ## Whole lines -/

theorem token_terminated {rest : Bytes} (spaced : space ∈ rest) (more : Bytes) :
    token (rest ++ more) = token rest := by
  obtain ⟨shown, tail, rfl, solid⟩ := List.eq_append_cons_of_mem spaced
  have scanned : ∀ b ∈ shown, b ≠ space := fun b member same => solid (same ▸ member)
  rw [List.append_assoc, List.cons_append, (token_of_solid scanned _).1, (token_of_solid scanned _).1]

theorem prependTag_untagged (untagged : buf.head? ≠ some 0x40) (text : String) :
    prependTag buf text = 0x40 :: (utf8 text ++ space :: buf) := by
  rw [prependTag]
  rintro rest rfl
  exact untagged rfl

theorem prependTag_append (nonempty : buf ≠ []) (text : String) (more : Bytes) :
    prependTag (buf ++ more) text = prependTag buf text ++ more := by
  obtain ⟨first, rest, rfl⟩ := List.exists_cons_of_ne_nil nonempty
  by_cases tagged : first = 0x40
  · subst tagged
    simp only [prependTag, List.cons_append, List.append_assoc]
  · have untagged : (first :: rest).head? ≠ some 0x40 := by simpa using tagged
    have more_untagged : ((first :: rest) ++ more).head? ≠ some 0x40 := by simpa using tagged
    rw [prependTag_untagged untagged, prependTag_untagged more_untagged]
    simp only [List.cons_append, List.append_assoc]

theorem prependTag_clean (wellFormed : tag.WellFormed) (nonempty : buf ≠ []) (clean : Clean buf) :
    Clean (prependTag buf tag.render) ∧ prependTag buf tag.render ≠ [] := by
  have added : Clean (utf8 tag.render) := wellFormed.render_clean.1.1
  obtain ⟨first, rest, rfl⟩ := List.exists_cons_of_ne_nil nonempty
  by_cases tagged : first = 0x40
  · subst tagged
    refine ⟨fun b member => ?_, List.cons_ne_nil _ _⟩
    simp only [prependTag, List.mem_cons, List.mem_append] at member
    rcases member with rfl | member | rfl | member
    · decide
    · exact added b member
    · decide
    · exact clean b (List.mem_cons_of_mem _ member)
  · rw [prependTag_untagged (by simpa using tagged)]
    refine ⟨fun b member => ?_, List.cons_ne_nil _ _⟩
    rw [List.mem_cons, List.mem_append, List.mem_cons] at member
    rcases member with rfl | member | rfl | member
    · decide
    · exact added b member
    · decide
    · exact clean b member

/-- The tags of a line that parses are read the same with another one in front, and so is what they take. -/
theorem parseTagPart_prependTag (wellFormed : tag.WellFormed) (nonempty : buf ≠ [])
    (parsed : parseBody buf limits = .ok message) (more : Bytes) :
    tagSection (buf ++ more) = tagSection buf ∧
      ∃ after, parseTagPart buf limits = .ok (message.tags, after) ∧
        parseTagPart (prependTag buf tag.render) limits =
          if TagFits limits tag.render buf then .ok (tag :: message.tags, after)
          else .error (.tagsTooLong limits.maxTagBytes) := by
  obtain ⟨after, readTags⟩ := parseBody_tags parsed
  obtain ⟨first, rest, rfl⟩ := List.exists_cons_of_ne_nil nonempty
  by_cases tagged : first = 0x40
  · subst tagged
    -- a tagged line without a space has no command
    have spaced : space ∈ rest := by
      by_contra absent
      have refused : parseTagPart (0x40 :: rest) limits = .error .missingCommand := by
        rw [parseTagPart, if_pos]
        simpa using absent
      rw [refused] at readTags
      cases readTags
    refine ⟨?_, after, readTags, parseTagPart_more wellFormed rest readTags⟩
    rw [List.cons_append, tagSection, tagSection, token_terminated spaced]
  · have untagged : (first :: rest).head? ≠ some 0x40 := by simpa using tagged
    have plain : parseTagPart (first :: rest) limits = .ok ([], first :: rest) := by
      rw [parseTagPart]
      rintro _ ⟨⟩
      exact tagged rfl
    obtain ⟨untouched, rfl⟩ := Prod.mk.inj (Except.ok.inj (plain.symm.trans readTags))
    rw [← untouched]
    refine ⟨?_, first :: rest, plain, ?_⟩
    · rw [List.cons_append, tagSection, tagSection]
      · rintro _ ⟨⟩
        exact tagged rfl
      · rintro _ ⟨⟩
        exact tagged rfl
    · rw [prependTag_untagged untagged]
      exact parseTagPart_first wellFormed nonempty (parseBody_head parsed untagged) untagged

/-- What follows the tags decides the rest of a message. -/
theorem parseBody_retag {other after : Bytes} {old tags : List Tag} (parsed : parseBody buf limits = .ok message)
    (read : parseTagPart buf limits = .ok (old, after))
    (retagged : parseTagPart other limits = .ok (tags, after)) :
    parseBody other limits = .ok { message with tags } := by
  rw [parseBody, read] at parsed
  obtain ⟨_, same, parsed⟩ := bind_ok parsed
  cases same
  dsimp only at parsed
  split at parsed
  · cases parsed
  · rename_i within
    obtain ⟨⟨source, rest⟩, readSource, parsed⟩ := bind_ok parsed
    obtain ⟨command, readCommand, parsed⟩ := bind_ok parsed
    obtain ⟨params, readParams, done⟩ := bind_ok parsed
    cases done
    rw [parseBody, retagged]
    simp only [bind, Except.bind, if_neg within, readSource, readCommand, readParams, pure, Except.pure]

theorem Renders.prependTag_ended (renders : Renders limits line message) (wellFormed : tag.WellFormed) :
    Ended (Ferrixd.prependTag line tag.render) := by
  obtain ⟨buf, rfl, nonempty, clean, -⟩ := renders.body
  rw [prependTag_append nonempty]
  exact ⟨_, rfl, fun b member => ((prependTag_clean wellFormed nonempty clean).1 b member).2⟩

/-- A tag in front of a rendered line is one more tag of its message, within the budget. -/
theorem Renders.prependTag (renders : Renders limits line message) (wellFormed : tag.WellFormed)
    (fits : TagFits limits tag.render line) :
    Renders limits (Ferrixd.prependTag line tag.render) (message.tagged tag) := by
  obtain ⟨buf, rfl, nonempty, clean, parsed⟩ := renders.body
  obtain ⟨sameSection, after, read, retagged⟩ :=
    parseTagPart_prependTag wellFormed nonempty parsed [carriageReturn, newline]
  obtain ⟨cleanMore, filled⟩ := prependTag_clean wellFormed nonempty clean
  have within : TagFits limits tag.render buf := by rwa [TagFits, sameSection] at fits
  rw [if_pos within] at retagged
  refine ⟨renders.prependTag_ended wellFormed, ?_⟩
  rw [prependTag_append nonempty, parse_clean filled cleanMore]
  exact parseBody_retag parsed read retagged

/-- Over the budget, the line is refused. -/
theorem Renders.prependTag_refused (renders : Renders limits line message) (wellFormed : tag.WellFormed)
    (beyond : ¬ TagFits limits tag.render line) :
    parse (Ferrixd.prependTag line tag.render) limits = .error (.tagsTooLong limits.maxTagBytes) := by
  obtain ⟨buf, rfl, nonempty, clean, parsed⟩ := renders.body
  obtain ⟨sameSection, after, read, retagged⟩ :=
    parseTagPart_prependTag wellFormed nonempty parsed [carriageReturn, newline]
  obtain ⟨cleanMore, filled⟩ := prependTag_clean wellFormed nonempty clean
  have outside : ¬ TagFits limits tag.render buf := by rwa [TagFits, sameSection] at beyond
  rw [if_neg outside] at retagged
  rw [prependTag_append nonempty, parse_clean filled cleanMore, parseBody, retagged]
  rfl

end Ferrixd
