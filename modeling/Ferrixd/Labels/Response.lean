import Ferrixd.Labels.Tagging

/-! # The label of a response

The label is put on the wire as it was decoded.  The response is read back with the label the client sent
exactly when the label is its own escaped form and the tags fit their budget. -/

namespace Ferrixd

open Protocol

/-- The values of the label tags of a message. -/
def labels (message : Message) : List (Option String) :=
  (message.tags.filter fun tag => tag.key = "label").map (·.value)

/-- A line that the response adds to the replies. -/
def IsFrame (message : Message) : Prop :=
  message.command = .named "ACK" ∨ message.command = .named "BATCH"

/-- A reply as the handler rendered it, perhaps with more tags in front. -/
structure Carries (handled sent : Message) : Prop where
  source : sent.source = handled.source
  command : sent.command = handled.command
  params : sent.params = handled.params
  tags : handled.tags <:+ sent.tags

/-- The replies once each and in order, at most one frame before and one after them, and the label on the
first line only. -/
structure LabeledResponse (label : String) (handled messages : List Message) : Prop where
  lines : ∃ opening inner closing, messages = opening ++ inner ++ closing ∧
    (opening.length ≤ 1 ∧ closing.length ≤ 1) ∧ (∀ message ∈ opening ++ closing, IsFrame message) ∧
      List.Forall₂ Carries handled inner
  labelled : ∃ first rest, messages = first :: rest ∧ labels first = [some label] ∧
    ∀ message ∈ rest, labels message = []

/-- A client reads the messages off a stream, line by line. -/
def Reads (limits : Limits) (stream : Bytes) (messages : List Message) : Prop :=
  ∃ raws, stream.splitOn newline = raws ++ [[]] ∧ raws.map (fun raw => parse raw limits) = messages.map .ok

/-- The tags that a labeled response adds, each with the line it is added to. -/
def addedTags (name reference label : String) (buffer : List Bytes) : List (String × Bytes) :=
  let labelTag := "label=" ++ label
  match buffer with
  | [] => [(labelTag, ackLine name)]
  | [line] => [(labelTag, line)]
  | first :: rest =>
    if opensBatch first then [(labelTag, first)]
    else (labelTag, batchOpening name reference) :: (first :: rest).map fun line => ("batch=" ++ reference, line)

/-- Every tag of a labeled response keeps its line within the tag budget. -/
def TagsFit (limits : Limits) (name reference label : String) (buffer : List Bytes) : Prop :=
  ∀ added ∈ addedTags name reference label buffer, TagFits limits added.1 added.2

/-- Text without a character that a tag value escapes or a line cannot carry. -/
def Plain (text : String) : Prop :=
  ∀ c ∈ text.toList, isEscaped c = false ∧ c ≠ '\x00'

/-- What the server's own lines need to be read back: a name that is a source, a message id without
anything to escape, and room for both. -/
structure Readable (limits : Limits) (name lead : String) : Prop where
  source : parseSource (utf8 name) = .ok ⟨name, none, none⟩
  clean : Clean (utf8 name)
  solid : space ∉ utf8 name
  plain : Plain lead
  fits : name.utf8ByteSize + lead.utf8ByteSize + 42 ≤ limits.maxBodyBytes

variable {limits : Limits} {name lead reference label : String} {handled : List Message} {buffer : List Bytes}

/-! ## Reading a stream line by line -/

theorem parse_unended (body : Bytes) :
    parse (body ++ [carriageReturn]) limits = parse (body ++ [carriageReturn, newline]) limits := by
  have kept : (body ++ [carriageReturn, newline]).reverse.dropWhile (fun b => b == 0x0d || b == 0x0a) =
      (body ++ [carriageReturn]).reverse.dropWhile fun b => b == 0x0d || b == 0x0a := by
    simp [carriageReturn, newline]
  have same : stripLineTerminators (body ++ [carriageReturn]) =
      stripLineTerminators (body ++ [carriageReturn, newline]) := by
    rw [stripLineTerminators, stripLineTerminators, kept]
  rw [parse, parse, same]

theorem splitOn_lines {bodies : List Bytes} (clean : ∀ body ∈ bodies, ∀ b ∈ body, b ≠ 0x0d ∧ b ≠ 0x0a) :
    (bodies.map fun body => body ++ [carriageReturn, newline]).flatten.splitOn newline =
      (bodies.map fun body => body ++ [carriageReturn]) ++ [[]] := by
  induction bodies with
  | nil => rfl
  | cons body rest ih =>
    have absent : newline ∉ body ++ [carriageReturn] := by
      rw [List.mem_append, not_or]
      exact ⟨fun member => (clean body List.mem_cons_self newline member).2 rfl, by decide⟩
    have shape : ((body :: rest).map fun body => body ++ [carriageReturn, newline]).flatten =
        (body ++ [carriageReturn]) ++
          newline :: (rest.map fun body => body ++ [carriageReturn, newline]).flatten := by
      simp
    rw [shape, List.splitOn_append_cons_self_of_not_mem absent,
      ih fun other member => clean other (List.mem_cons_of_mem _ member)]
    rfl

theorem ended_bodies {lines : List Bytes} (ended : ∀ line ∈ lines, Ended line) :
    ∃ bodies : List Bytes, lines = bodies.map (fun body => body ++ [carriageReturn, newline]) ∧
      ∀ body ∈ bodies, ∀ b ∈ body, b ≠ 0x0d ∧ b ≠ 0x0a := by
  induction lines with
  | nil => exact ⟨[], rfl, fun _ member => absurd member List.not_mem_nil⟩
  | cons line rest ih =>
    obtain ⟨body, rfl, clean⟩ := ended line List.mem_cons_self
    obtain ⟨bodies, rfl, others⟩ := ih fun other member => ended other (List.mem_cons_of_mem _ member)
    refine ⟨body :: bodies, rfl, fun other member => ?_⟩
    rcases List.mem_cons.mp member with rfl | member
    · exact clean
    · exact others other member

/-- Reading a stream of whole lines is parsing each of them. -/
theorem reads_iff {lines : List Bytes} (ended : ∀ line ∈ lines, Ended line) (messages : List Message) :
    Reads limits lines.flatten messages ↔ lines.map (fun line => parse line limits) = messages.map .ok := by
  obtain ⟨bodies, rfl, clean⟩ := ended_bodies ended
  have same : (bodies.map fun body => body ++ [carriageReturn]).map (fun raw => parse raw limits) =
      (bodies.map fun body => body ++ [carriageReturn, newline]).map fun line => parse line limits := by
    rw [List.map_map, List.map_map]
    exact List.map_congr_left fun body _ => parse_unended body
  rw [Reads, splitOn_lines clean]
  constructor
  · rintro ⟨raws, split, read⟩
    rw [← same, List.append_cancel_right split, read]
  · intro read
    exact ⟨_, rfl, same.trans read⟩

/-! ## Text that needs no escape -/

theorem escapeChar_bytes (c : Char) : c.utf8Size + (if isEscaped c then 1 else 0) = charBytes (escapeChar c) := by
  cases escaped : isEscaped c with
  | false => simp [escapeChar_plain escaped, charBytes]
  | true =>
    obtain ⟨letter, shape, single⟩ := escapeChar_escaped escaped
    have ascii : c.utf8Size = 1 := by
      simp only [isEscaped, Bool.or_eq_true, beq_iff_eq] at escaped
      rcases escaped with (((rfl | rfl) | rfl) | rfl) | rfl <;> rfl
    have backslash : Char.utf8Size '\\' = 1 := rfl
    simp [shape, ascii, charBytes, single, backslash]

theorem escapeValue_plain {text : String} (plain : ∀ c ∈ text.toList, isEscaped c = false) :
    escapeValue text = text := by
  have chars : text.toList.flatMap escapeChar = text.toList := by
    rw [List.flatMap_congr fun c member => escapeChar_plain (plain c member)]
    exact List.flatMap_singleton' _
  rw [escapeValue, chars, String.ofList_toList]

/-- An escaped value is longer than a value with something to escape. -/
theorem escapeValue_of_length {text : String} (short : (utf8 (escapeValue text)).length ≤ (utf8 text).length) :
    escapeValue text = text := by
  refine escapeValue_plain fun c member => ?_
  rw [utf8_length_charBytes, utf8_length_charBytes, escapeValue, String.toList_ofList] at short
  have counted : ∀ chars : List Char, charBytes chars + chars.countP isEscaped = charBytes (chars.flatMap escapeChar) := by
    intro chars
    induction chars with
    | nil => rfl
    | cons first rest ih =>
      have one := escapeChar_bytes first
      simp only [charBytes, List.flatMap_cons, List.map_cons, List.map_append, List.sum_cons, List.sum_append,
        List.countP_cons] at ih one ⊢
      omega
  have none : text.toList.countP isEscaped = 0 := by
    have total := counted text.toList
    omega
  simpa using List.countP_eq_zero.mp none c member

theorem nextMsgid_plain {history : History} (plain : Plain history.msgidLead) :
    Plain history.nextMsgid.1 := by
  intro c member
  rw [History.nextMsgid, String.toList_append, List.mem_append] at member
  rcases member with front | digits
  · exact plain c front
  · obtain ⟨digit, small, rfl⟩ := (hex16_digits _).2 c digits
    clear digits
    interval_cases digit <;> decide

/-! ## The lines the server adds -/

/-- A line of the server itself. -/
def serverMessage (name verb : String) (params : List String) : Message :=
  ⟨[], some ⟨name, none, none⟩, .named verb, params⟩

theorem Protocol.Message.WellFormed.renders {message : Message} (wellFormed : message.WellFormed)
    (untagged : message.tags = []) (fits : (utf8 message.body).length ≤ limits.maxBodyBytes) :
    Renders limits (utf8 message.render) message where
  ended := by
    refine ⟨utf8 message.body, ?_, fun b member => (wellFormed.body_clean b member).2⟩
    rw [utf8_render, untagged]
    rfl
  parsed := wellFormed.reparse (untagged ▸ Nat.zero_le _) fits

theorem Readable.wellFormed (readable : Readable limits name lead) {verb : String} {params : List String}
    (named : parseCommand (utf8 verb) = .ok (.named verb)) (carried : ParamsWellFormed params) :
    (serverMessage name verb params).WellFormed where
  tags := by simp [serverMessage]
  source := by
    intro source same
    cases same
    have shown : (Source.mk name none none).render = name := by simp [Source.render]
    rw [shown]
    exact ⟨readable.source, readable.clean, readable.solid⟩
  command := named
  params := carried

theorem Plain.middle (plain : Plain reference) (first : Char)
    (head : first ≠ ' ' ∧ first ≠ '\x00' ∧ first ≠ '\r' ∧ first ≠ '\n' ∧ first ≠ ':') :
    Middle (String.singleton first ++ reference) := by
  obtain ⟨blank, nul, cr, lf, marked⟩ := head
  have chars : (String.singleton first ++ reference).toList = first :: reference.toList := by
    rw [String.toList_append, String.toList_singleton]
    rfl
  rw [Middle, chars]
  refine ⟨List.cons_ne_nil _ _, fun c member => ?_, by simpa using marked⟩
  rcases List.mem_cons.mp member with rfl | member
  · exact ⟨blank, nul, cr, lf⟩
  · obtain ⟨unescaped, whole⟩ := plain c member
    refine ⟨?_, whole, ?_, ?_⟩ <;> rintro rfl <;> cases unescaped

theorem serverMessage_body (name verb : String) (params : List String) :
    (serverMessage name verb params).body = ":" ++ name ++ " " ++ verb ++ renderParams params := by
  simp [serverMessage, Message.body, Source.render, Command.render]

theorem serverMessage_render (name verb : String) (params : List String) :
    (serverMessage name verb params).render = ":" ++ name ++ " " ++ verb ++ renderParams params ++ "\r\n" := by
  rw [Message.render, serverMessage_body]
  simp [serverMessage]

theorem Readable.renders (readable : Readable limits name lead) (verb : String) (params : List String)
    (named : parseCommand (utf8 verb) = .ok (.named verb)) (carried : ParamsWellFormed params)
    (short : verb.utf8ByteSize + (renderParams params).utf8ByteSize ≤ lead.utf8ByteSize + 40) :
    Renders limits (utf8 (":" ++ name ++ " " ++ verb ++ renderParams params ++ "\r\n"))
      (serverMessage name verb params) := by
  have wellFormed := readable.wellFormed named carried
  rw [← serverMessage_render]
  refine wellFormed.renders rfl ?_
  have room := readable.fits
  have marks : (":").utf8ByteSize = 1 ∧ (" ").utf8ByteSize = 1 := ⟨rfl, rfl⟩
  rw [utf8_length, serverMessage_body]
  simp only [String.utf8ByteSize_append, marks]
  omega

theorem ackLine_renders (readable : Readable limits name lead) :
    Renders limits (ackLine name) (serverMessage name "ACK" []) := by
  have size : ("ACK").utf8ByteSize + (renderParams []).utf8ByteSize = 3 := rfl
  have rendered := readable.renders "ACK" [] (by decide) trivial (by omega)
  simpa only [ackLine, Line.server, Line.command, Line.build, renderParams, String.append_empty] using rendered

/-- A message id of the server. -/
structure Reference (lead reference : String) : Prop where
  plain : Plain reference
  short : reference.utf8ByteSize ≤ lead.utf8ByteSize + 16

theorem batchOpening_renders (readable : Readable limits name lead) (minted : Reference lead reference) :
    Renders limits (batchOpening name reference)
      (serverMessage name "BATCH" ["+" ++ reference, "labeled-response"]) := by
  have middle : Middle ("+" ++ reference) := minted.plain.middle '+' (by decide)
  have shown : renderParams ["+" ++ reference, "labeled-response"] =
      " " ++ ("+" ++ reference) ++ (" " ++ "labeled-response") := rfl
  have sizes : ("BATCH").utf8ByteSize = 5 ∧ (" ").utf8ByteSize = 1 ∧ ("+").utf8ByteSize = 1 ∧
      ("labeled-response").utf8ByteSize = 16 := by decide
  have short := minted.short
  have rendered := readable.renders "BATCH" ["+" ++ reference, "labeled-response"]
    (by decide) ⟨middle, show Trailing "labeled-response" by decide⟩
    (by simp only [shown, String.utf8ByteSize_append, sizes]; omega)
  simpa only [batchOpening, Line.server, Line.command, Line.param, Line.build, shown, String.append_assoc] using rendered

theorem batchClosing_renders (readable : Readable limits name lead) (minted : Reference lead reference) :
    Renders limits (batchClosing name reference) (serverMessage name "BATCH" ["-" ++ reference]) := by
  have middle : Middle ("-" ++ reference) := minted.plain.middle '-' (by decide)
  have unmarked : needsColon ("-" ++ reference) = false :=
    (needsColon_false_iff (trailing_of_middle middle)).mpr middle
  have shown : renderParams ["-" ++ reference] = " " ++ ("-" ++ reference) := by
    rw [renderParams, unmarked]
    rfl
  have sizes : ("BATCH").utf8ByteSize = 5 ∧ (" ").utf8ByteSize = 1 ∧ ("-").utf8ByteSize = 1 := by decide
  have short := minted.short
  have rendered := readable.renders "BATCH" ["-" ++ reference]
    (by decide) (show Trailing ("-" ++ reference) from trailing_of_middle middle)
    (by simp only [shown, String.utf8ByteSize_append, sizes]; omega)
  simpa only [batchClosing, Line.server, Line.command, Line.param, Line.build, shown, String.append_assoc] using rendered

theorem nextMsgid_reference {history : History} (plain : Plain history.msgidLead) :
    Reference history.msgidLead history.nextMsgid.1 where
  plain := nextMsgid_plain plain
  short := by
    obtain ⟨length, digits⟩ := hex16_digits history.nextId
    have single : ∀ c ∈ (hex16 history.nextId).toList, c.utf8Size = 1 := by
      intro c member
      obtain ⟨digit, small, rfl⟩ := digits c member
      clear member
      interval_cases digit <;> rfl
    have size : (hex16 history.nextId).utf8ByteSize = 16 := by
      rw [← utf8_length, utf8_length_charBytes, charBytes, List.map_congr_left single, List.map_const', length]
      simp
    rw [History.nextMsgid, String.utf8ByteSize_append, size]

/-! ## The shapes of a response -/

theorem labels_tagged (message : Message) (value : Option String) :
    labels (message.tagged ⟨"label", value⟩) = value :: labels message := by
  simp [labels, Message.tagged]

theorem labels_batched (message : Message) (value : Option String) :
    labels (message.tagged ⟨"batch", value⟩) = labels message := by
  simp [labels, Message.tagged]

theorem Carries.tagged (message : Message) (tag : Tag) :
    Carries message (message.tagged tag) :=
  ⟨rfl, rfl, rfl, List.suffix_cons tag message.tags⟩

theorem Carries.same (message : Message) : Carries message message :=
  ⟨rfl, rfl, rfl, List.suffix_refl _⟩

theorem labelTag_render (escaped : escapeValue label = label) :
    "label=" ++ label = (Tag.mk "label" (some label)).render := by
  simp only [Tag.render, escaped]
  rfl

theorem batchTag_render (plain : Plain reference) :
    "batch=" ++ reference = (Tag.mk "batch" (some reference)).render := by
  simp only [Tag.render, escapeValue_plain fun c member => (plain c member).1]
  rfl

theorem labelTag_wellFormed (whole : '\x00' ∉ label.toList) : (Tag.mk "label" (some label)).WellFormed := by
  refine ⟨show parseTagKey (utf8 "label") = .ok "label" by decide, fun value same => ?_⟩
  cases same
  exact whole

theorem batchTag_wellFormed (plain : Plain reference) : (Tag.mk "batch" (some reference)).WellFormed := by
  refine ⟨show parseTagKey (utf8 "batch") = .ok "batch" by decide, fun value same => ?_⟩
  cases same
  exact fun member => (plain _ member).2 rfl

/-- Replies in a batch are read with the reference of the batch. -/
theorem batched_renders (plain : Plain reference) (rendered : List.Forall₂ (Renders limits) buffer handled)
    (fit : ∀ line ∈ buffer, TagFits limits ("batch=" ++ reference) line) :
    ∃ inner, List.Forall₂ (Renders limits) (buffer.map fun line => prependTag line ("batch=" ++ reference)) inner ∧
      List.Forall₂ Carries handled inner ∧ inner.map labels = handled.map labels := by
  rw [batchTag_render plain] at fit ⊢
  induction rendered with
  | nil => exact ⟨[], .nil, .nil, rfl⟩
  | @cons line message lines messages first rest ih =>
    obtain ⟨inner, renders, carried, labelled⟩ := ih fun other member => fit other (List.mem_cons_of_mem _ member)
    refine ⟨message.tagged ⟨"batch", some reference⟩ :: inner, .cons ?_ renders,
      .cons (.tagged message _) carried, ?_⟩
    · exact first.prependTag (batchTag_wellFormed plain) (fit line List.mem_cons_self)
    · rw [List.map_cons, List.map_cons, labels_batched, labelled]

theorem carries_same (messages : List Message) : List.Forall₂ Carries messages messages := by
  induction messages with
  | nil => exact .nil
  | cons message rest ih => exact .cons (.same message) ih

theorem labelTag_renders {line : Bytes} {message : Message} (renders : Renders limits line message)
    (whole : '\x00' ∉ label.toList) (escaped : escapeValue label = label)
    (fits : TagFits limits ("label=" ++ label) line) :
    Renders limits (prependTag line ("label=" ++ label)) (message.tagged ⟨"label", some label⟩) := by
  rw [labelTag_render escaped] at fits ⊢
  exact renders.prependTag (labelTag_wellFormed whole) fits

/-- The label stands on the first of several messages, and nowhere else if it has no other label. -/
theorem labelled_iff {first : Message} {rest : List Message} :
    (∃ opening others, first.tagged ⟨"label", some label⟩ :: rest = opening :: others ∧ labels opening = [some label] ∧
      ∀ message ∈ others, labels message = []) ↔ labels first = [] ∧ ∀ message ∈ rest, labels message = [] := by
  constructor
  · rintro ⟨opening, others, same, labelled, unlabelled⟩
    obtain ⟨rfl, rfl⟩ := List.cons.inj same
    rw [labels_tagged, List.cons.injEq] at labelled
    exact ⟨labelled.2, unlabelled⟩
  · rintro ⟨none, unlabelled⟩
    exact ⟨_, _, rfl, by rw [labels_tagged, none], unlabelled⟩

/-- A response in one of the four shapes reads back as the replies, and under the label if they have none of their own. -/
theorem labeledLines_renders (readable : Readable limits name lead) (minted : Reference lead reference)
    (rendered : List.Forall₂ (Renders limits) buffer handled) (whole : '\x00' ∉ label.toList)
    (escaped : escapeValue label = label) (fit : TagsFit limits name reference label buffer) :
    ∃ messages, List.Forall₂ (Renders limits) (labeledLines name reference label buffer) messages ∧
      (LabeledResponse label handled messages ↔ ∀ message ∈ handled, labels message = []) := by
  rw [TagsFit] at fit
  have shaped {messages : List Message} {unlabelled : Prop}
      (lines : ∃ opening inner closing, messages = opening ++ inner ++ closing ∧
        (opening.length ≤ 1 ∧ closing.length ≤ 1) ∧ (∀ message ∈ opening ++ closing, IsFrame message) ∧
          List.Forall₂ Carries handled inner)
      (labelled : (∃ first rest, messages = first :: rest ∧ labels first = [some label] ∧
        ∀ message ∈ rest, labels message = []) ↔ unlabelled) : LabeledResponse label handled messages ↔ unlabelled :=
    ⟨fun response => labelled.mp response.labelled, fun none => ⟨lines, labelled.mpr none⟩⟩
  cases rendered with
  | nil =>
    -- no reply: the label stands on the `ACK`
    have ack := labelTag_renders (ackLine_renders readable) whole escaped (fit _ List.mem_cons_self)
    refine ⟨[_], .cons ack .nil, shaped ⟨[_], [], [], rfl, by simp, ?_, .nil⟩ (labelled_iff.trans ?_)⟩
    · simp [IsFrame, serverMessage, Message.tagged]
    · exact iff_of_true ⟨rfl, by simp⟩ (by simp)
  | @cons line message lines messages first rest =>
    cases rest with
    | nil =>
      -- one reply: the label stands on it
      have only := labelTag_renders first whole escaped (fit _ List.mem_cons_self)
      exact ⟨[_], .cons only .nil, shaped ⟨[], [_], [], rfl, by simp, by simp, .cons (.tagged message _) .nil⟩
        (labelled_iff.trans (List.forall_mem_cons (p := fun other => labels other = [])).symm)⟩
    | @cons second secondMessage lines messages secondRenders rest =>
      have several := List.Forall₂.cons secondRenders rest
      cases opens : opensBatch line with
      | true =>
        -- the handler opened a batch: the label stands on its opening
        have opening := labelTag_renders first whole escaped
          (fit _ (by simp only [addedTags, opens, if_true]; exact List.mem_cons_self))
        refine ⟨message.tagged ⟨"label", some label⟩ :: secondMessage :: messages, ?_,
          shaped ⟨[], _, [], (List.append_nil _).symm, by simp, by simp, .cons (.tagged message _) (carries_same _)⟩
            (labelled_iff.trans (List.forall_mem_cons (p := fun other => labels other = [])).symm)⟩
        simp only [labeledLines, opens, if_true]
        exact .cons opening several
      | false =>
        -- a batch around all replies: the label stands on its opening
        simp only [addedTags, opens, Bool.false_eq_true, if_false] at fit
        have opening := labelTag_renders (batchOpening_renders readable minted) whole escaped
          (fit _ List.mem_cons_self)
        obtain ⟨inner, innerRenders, carried, innerLabels⟩ := batched_renders minted.plain (.cons first several)
          fun other member => fit _ (List.mem_cons_of_mem _ (List.mem_map_of_mem member))
        have untagged : ∀ frame : Message, frame.tags = [] → labels frame = [] := by
          intro frame none
          rw [labels, none]
          rfl
        have framed : ∀ params, IsFrame (serverMessage name "BATCH" params) := fun params => .inr rfl
        refine ⟨(serverMessage name "BATCH" ["+" ++ reference, "labeled-response"]).tagged ⟨"label", some label⟩ ::
            (inner ++ [serverMessage name "BATCH" ["-" ++ reference]]), ?_,
          shaped ⟨[_], inner, [_], rfl, by simp, ?_, carried⟩ (labelled_iff.trans ?_)⟩
        · simp only [labeledLines, opens, Bool.false_eq_true, if_false]
          exact .cons opening (List.rel_append innerRenders (.cons (batchClosing_renders readable minted) .nil))
        · intro frame member
          rcases List.mem_cons.mp member with rfl | closing
          · exact framed ["+" ++ reference, "labeled-response"]
          · exact List.mem_singleton.mp closing ▸ framed ["-" ++ reference]
        · -- the frames have no label, and the lines between them those of the replies
          have blank : ∀ replies : List Message, (∀ reply ∈ replies, labels reply = []) ↔
              ∀ value ∈ replies.map labels, value = [] := by simp
          rw [List.forall_mem_append, blank inner, innerLabels, ← blank]
          simp [untagged (serverMessage name "BATCH" _) rfl]

/-! ## The label that is read -/

theorem splitOn_head (x : UInt8) (bytes : Bytes) :
    ∃ others, bytes.splitOn x = (bytes.takeWhile fun b => b != x) :: others := by
  by_cases member : x ∈ bytes
  · obtain ⟨before, after, rfl, absent⟩ := List.eq_append_cons_of_mem member
    have scanned : ∀ b ∈ before, (b != x) = true := by
      intro b inBefore
      rw [bne_iff_ne]
      rintro rfl
      exact absent inBefore
    refine ⟨after.splitOn x, ?_⟩
    rw [List.splitOn_append_cons_self_of_not_mem absent, List.takeWhile_append_of_pos scanned,
      List.takeWhile_cons_of_neg (by simp), List.append_nil]
  · refine ⟨[], ?_⟩
    have scanned : ∀ b ∈ bytes, (b != x) = true := by
      intro b inBytes
      rw [bne_iff_ne]
      rintro rfl
      exact member inBytes
    rw [List.splitOn_eq_singleton member, List.takeWhile_eq_self_iff.mpr scanned]

theorem stripLineTerminators_shortens (bytes : Bytes) : stripLineTerminators bytes <+: bytes := by
  have suffix := List.dropWhile_suffix (fun b : UInt8 => b == 0x0d || b == 0x0a) (l := bytes.reverse)
  rw [stripLineTerminators]
  simpa using List.reverse_prefix.mpr suffix

theorem prependTag_opening (line : Bytes) (text : String) :
    ∃ stop more, prependTag line text = 0x40 :: (utf8 text ++ stop :: more) ∧ (stop = space ∨ stop = 0x3b) := by
  by_cases tagged : line.head? = some 0x40
  · obtain ⟨rest, rfl⟩ := List.head?_eq_some_iff.mp tagged
    exact ⟨0x3b, rest, rfl, .inr rfl⟩
  · exact ⟨space, line, prependTag_untagged tagged text, .inl rfl⟩

/-- The tags of a line that parses are those of its section. -/
theorem parse_section {raw rest : Bytes} {message : Message} (parsed : parse raw limits = .ok message)
    (tagged : stripLineTerminators raw = 0x40 :: rest) :
    Clean rest ∧ space ∈ rest ∧ parseTags (token rest) = .ok message.tags := by
  rw [parse, tagged] at parsed
  dsimp only at parsed
  rw [if_neg (by simp)] at parsed
  split at parsed
  · cases parsed
  · rename_i legal
    obtain ⟨after, read⟩ : ∃ after, parseTagPart (0x40 :: rest) limits = .ok (message.tags, after) :=
      parseBody_tags parsed
    refine ⟨fun b member => ?_, ?_⟩
    · have plain := List.any_eq_false.mp (Bool.eq_false_iff.mpr legal) b (List.mem_cons_of_mem _ member)
      simpa [not_or, and_assoc] using plain
    · rw [parseTagPart] at read
      split at read
      · cases read
      · rename_i spaced
        split at read
        · cases read
        · obtain ⟨section_tags, readTags, read⟩ := bind_ok read
          dsimp only at read
          split at read
          · cases read
          · obtain ⟨same, -⟩ := Prod.mk.inj (Except.ok.inj read)
            exact ⟨by simpa using spaced, same ▸ readTags⟩

/-- The bytes of the label that the first tag of a line is read from. -/
theorem token_label {rest more : Bytes} {stop : UInt8} (stops : stop = space ∨ stop = 0x3b)
    (opening : rest <+: utf8 ("label=" ++ label) ++ stop :: more) (spaced : space ∈ rest) :
    ∃ wire others, (token rest).splitOn 0x3b = (utf8 "label" ++ 0x3d :: wire) :: others ∧
      wire.length ≤ (utf8 label).length := by
  obtain ⟨tail, whole⟩ := opening
  have solid : ∀ b ∈ utf8 "label=", (b != space) = true := List.all_eq_true.mp (by decide)
  have unseparated : ∀ b ∈ utf8 "label=", (b != 0x3b) = true := List.all_eq_true.mp (by decide)
  have shape : utf8 ("label=" ++ label) ++ stop :: more = utf8 "label=" ++ (utf8 label ++ stop :: more) := by
    rw [utf8_append, List.append_assoc]
  have section_eq : token rest = utf8 "label=" ++ token (utf8 label ++ stop :: more) := by
    rw [← token_terminated spaced tail, whole, shape, token,
      List.takeWhile_append_of_pos solid, token]
  obtain ⟨others, split⟩ := splitOn_head 0x3b (token rest)
  refine ⟨(token (utf8 label ++ stop :: more)).takeWhile fun b => b != 0x3b, others, ?_, ?_⟩
  · have keyed : utf8 "label=" = utf8 "label" ++ [0x3d] := by decide
    rw [split, section_eq, List.takeWhile_append_of_pos unseparated, keyed, List.append_assoc]
    rfl
  · -- the byte after the label ends the value, if nothing in the label does
    have ended : (stop :: more).takeWhile (fun b => decide ((b != 0x3b) = true ∧ (b != space) = true)) = [] := by
      refine List.takeWhile_cons_of_neg ?_
      rcases stops with rfl | rfl <;> decide
    rw [token, List.takeWhile_takeWhile, List.takeWhile_append]
    split
    · rw [ended, List.append_nil]
    · exact (List.takeWhile_sublist _).length_le

/-- A label that is read as it was sent had nothing to escape. -/
theorem escaped_of_read {raw more : Bytes} {stop : UInt8} {message : Message} (stops : stop = space ∨ stop = 0x3b)
    (opening : raw <+: 0x40 :: (utf8 ("label=" ++ label) ++ stop :: more))
    (parsed : parse raw limits = .ok message) (labelled : labels message = [some label]) :
    escapeValue label = label := by
  have stripped := (stripLineTerminators_shortens raw).trans opening
  rcases List.prefix_cons_iff.mp stripped with empty | ⟨rest, tagged, opening⟩
  · rw [parse, empty] at parsed
    cases parsed
  · obtain ⟨clean, spaced, readTags⟩ := parse_section parsed tagged
    obtain ⟨wire, others, pieces, short⟩ := token_label stops opening spaced
    have inside := (splitOn_pieces 0x3b (token rest)).1 (utf8 "label" ++ 0x3d :: wire) (pieces ▸ List.mem_cons_self)
    have pieceClean : TagClean (utf8 "label" ++ 0x3d :: wire) := by
      refine ⟨fun b member => clean b ?_, fun member => space_notMem_token rest (inside.2 _ member), inside.1⟩
      exact (List.takeWhile_sublist _).mem (inside.2 b member)
    have filled : (!(utf8 "label" ++ 0x3d :: wire).isEmpty) = true := by simp
    rw [parseTags, pieces, List.filter_cons_of_pos (p := fun raw : Bytes => !raw.isEmpty) filled,
      List.mapM_cons] at readTags
    obtain ⟨tag, readTag, readTags⟩ := bind_ok readTags
    obtain ⟨rest_tags, -, done⟩ := bind_ok readTags
    obtain ⟨-, shorter⟩ := parseTag_wellFormed readTag pieceClean
    -- the first piece is the label's tag, cut off where the reader stops
    have keyed : tag.key = "label" := by
      have unequal : ∀ b ∈ utf8 "label", b ≠ 0x3d := by
        intro b member
        have apart : ∀ b ∈ utf8 "label", (b != 0x3d) = true := List.all_eq_true.mp (by decide)
        simpa using apart b member
      have parted : splitByte 0x3d (utf8 "label" ++ 0x3d :: wire) = (utf8 "label", some wire) :=
        splitByte_append unequal (some wire)
      rw [parseTag, parted] at readTag
      obtain ⟨key, readKey, readTag⟩ := bind_ok readTag
      obtain ⟨value, -, done⟩ := bind_ok readTag
      cases done
      have known : parseTagKey (utf8 "label") = .ok "label" := by decide
      exact (Except.ok.inj (known.symm.trans readKey)).symm
    have valued : tag.value = some label := by
      have tags : message.tags = tag :: rest_tags := (Except.ok.inj done).symm
      rw [labels, tags, List.filter_cons_of_pos (p := fun tag : Tag => tag.key = "label") (by simpa using keyed)] at labelled
      exact (List.cons.inj labelled).1
    rw [utf8_tag, keyed, valued] at shorter
    refine escapeValue_of_length ?_
    simp only [Option.map_some, Option.elim_some, List.length_append, List.length_cons] at shorter
    omega

/-! ## What is sent -/

theorem beginLabel_whole {input : Bytes} {accepted : Limits} {message : Message} {caps : CapSet}
    (parsed : parse input accepted = .ok message) (begun : beginLabel caps message = some label) :
    '\x00' ∉ label.toList := by
  rw [beginLabel] at begun
  split at begun
  · rw [Message.tag] at begun
    obtain ⟨tag, found, valued⟩ := Option.map_eq_some_iff.mp (Option.join_eq_some_iff.mp begun)
    exact ((parse_wellFormed parsed).1.tags tag (List.mem_of_find?_eq_some found)).2 label valued
  · cases begun

theorem send_lines_mail (id : UInt64) (lines : List Bytes) (s : Server) :
    (lines.foldl (fun s line => s.send id line) s).fx.mail = s.fx.mail ++ lines.map (Prod.mk id) := by
  induction lines generalizing s with
  | nil => exact (List.append_nil _).symm
  | cons line rest ih =>
    rw [List.foldl_cons, ih]
    simp [Server.send, Server.emit]

theorem endLabel_mail (s : Server) (id : UInt64) (label : String) (buffer : List Bytes) :
    (s.endLabel id label buffer).fx.mail =
      s.fx.mail ++ (labeledLines s.info.name s.fx.history.nextMsgid.1 label buffer).map (Prod.mk id) := by
  rw [Server.endLabel]
  dsimp only
  split
  · exact send_lines_mail id _ _
  · exact send_lines_mail id _ _

theorem labeledLines_several (name reference label : String) (first second : Bytes) (rest : List Bytes) :
    labeledLines name reference label (first :: second :: rest) =
      if opensBatch first then prependTag first ("label=" ++ label) :: second :: rest
      else prependTag (batchOpening name reference) ("label=" ++ label) ::
        ((first :: second :: rest).map fun line => prependTag line ("batch=" ++ reference)) ++
          [batchClosing name reference] :=
  rfl

theorem addedTags_several (name reference label : String) (first second : Bytes) (rest : List Bytes) :
    addedTags name reference label (first :: second :: rest) =
      if opensBatch first then [("label=" ++ label, first)]
      else ("label=" ++ label, batchOpening name reference) ::
        (first :: second :: rest).map fun line => ("batch=" ++ reference, line) :=
  rfl

theorem rendered_mem (rendered : List.Forall₂ (Renders limits) buffer handled) {line : Bytes} (member : line ∈ buffer) :
    ∃ message, Renders limits line message := by
  induction rendered with
  | nil => cases member
  | @cons _ message _ _ first _ ih =>
    rcases List.mem_cons.mp member with rfl | member
    · exact ⟨message, first⟩
    · exact ih member

theorem rendered_parse {lines : List Bytes} {messages : List Message}
    (rendered : List.Forall₂ (Renders limits) lines messages) :
    lines.map (fun line => parse line limits) = messages.map .ok := by
  induction rendered with
  | nil => rfl
  | cons first _ ih => rw [List.map_cons, List.map_cons, first.parsed, ih]

/-- The lines of a response are tagged ones, replies, and the closing of a batch. -/
theorem mem_labeledLines {line : Bytes} (member : line ∈ labeledLines name reference label buffer) :
    (∃ added ∈ addedTags name reference label buffer, line = prependTag added.2 added.1) ∨ line ∈ buffer ∨
      line = batchClosing name reference := by
  -- one line is tagged itself; several are tagged or wrapped in a batch
  match buffer with
  | [] =>
    exact .inl ⟨_, List.mem_cons_self, List.mem_singleton.mp member⟩
  | [only] =>
    exact .inl ⟨_, List.mem_cons_self, List.mem_singleton.mp member⟩
  | first :: second :: rest =>
    rw [labeledLines_several] at member
    split at member
    · rename_i opens
      rcases List.mem_cons.mp member with rfl | member
      · refine .inl ⟨("label=" ++ label, first), ?_, rfl⟩
        rw [addedTags_several, if_pos opens]
        exact List.mem_cons_self
      · exact .inr (.inl (List.mem_cons_of_mem _ member))
    · rename_i plain
      have wrapped : addedTags name reference label (first :: second :: rest) =
          ("label=" ++ label, batchOpening name reference) ::
            (first :: second :: rest).map fun line => ("batch=" ++ reference, line) := by
        rw [addedTags_several, if_neg plain]
      rw [wrapped]
      rcases List.mem_append.mp member with member | closing
      · rcases List.mem_cons.mp member with rfl | member
        · exact .inl ⟨_, List.mem_cons_self, rfl⟩
        · obtain ⟨reply, inBuffer, rfl⟩ := List.mem_map.mp member
          exact .inl ⟨_, List.mem_cons_of_mem _ (List.mem_map_of_mem inBuffer), rfl⟩
      · exact .inr (.inr (List.mem_singleton.mp closing))

theorem addedTags_mem {added : String × Bytes} (member : added ∈ addedTags name reference label buffer) :
    prependTag added.2 added.1 ∈ labeledLines name reference label buffer := by
  match buffer with
  | [] =>
    rw [List.mem_singleton.mp member]
    exact List.mem_cons_self
  | [only] =>
    rw [List.mem_singleton.mp member]
    exact List.mem_cons_self
  | first :: second :: rest =>
    rw [addedTags_several] at member
    rw [labeledLines_several]
    split at member
    · rename_i opens
      rw [if_pos opens, List.mem_singleton.mp member]
      exact List.mem_cons_self
    · rename_i plain
      rw [if_neg plain]
      refine List.mem_append_left _ ?_
      rcases List.mem_cons.mp member with rfl | member
      · exact List.mem_cons_self
      · obtain ⟨reply, inBuffer, rfl⟩ := List.mem_map.mp member
        exact List.mem_cons_of_mem _ (List.mem_map_of_mem inBuffer)

/-- Every tag that a response adds is one the grammar carries, in front of a rendered line. -/
theorem addedTags_render (readable : Readable limits name lead) (minted : Reference lead reference)
    (rendered : List.Forall₂ (Renders limits) buffer handled) (whole : '\x00' ∉ label.toList)
    (escaped : escapeValue label = label) {added : String × Bytes}
    (member : added ∈ addedTags name reference label buffer) :
    ∃ tag message, added.1 = Tag.render tag ∧ tag.WellFormed ∧ Renders limits added.2 message := by
  -- whatever carries the label is a line that is read back
  have labelled : ∀ line message, Renders limits line message →
      ∃ tag message, "label=" ++ label = Tag.render tag ∧ tag.WellFormed ∧ Renders limits line message :=
    fun line message renders => ⟨_, message, labelTag_render escaped, labelTag_wellFormed whole, renders⟩
  cases rendered with
  | nil =>
    rw [List.mem_singleton.mp member]
    exact labelled _ _ (ackLine_renders readable)
  | @cons line message lines messages first rest =>
    cases rest with
    | nil =>
      rw [List.mem_singleton.mp member]
      exact labelled _ _ first
    | cons second rest =>
      rw [addedTags_several] at member
      split at member
      · rw [List.mem_singleton.mp member]
        exact labelled _ _ first
      · rcases List.mem_cons.mp member with rfl | member
        · exact labelled _ _ (batchOpening_renders readable minted)
        · obtain ⟨reply, inBuffer, rfl⟩ := List.mem_map.mp member
          obtain ⟨message, renders⟩ := rendered_mem (.cons first (.cons second rest)) inBuffer
          exact ⟨_, message, batchTag_render minted.plain, batchTag_wellFormed minted.plain, renders⟩

theorem labeledLines_ended (readable : Readable limits name lead) (minted : Reference lead reference)
    (rendered : List.Forall₂ (Renders limits) buffer handled) (whole : '\x00' ∉ label.toList)
    (escaped : escapeValue label = label) :
    ∀ line ∈ labeledLines name reference label buffer, Ended line := by
  intro line member
  rcases mem_labeledLines member with ⟨added, inAdded, rfl⟩ | reply | rfl
  · obtain ⟨tag, message, shown, wellFormed, renders⟩ :=
      addedTags_render readable minted rendered whole escaped inAdded
    rw [shown]
    exact renders.prependTag_ended wellFormed
  · obtain ⟨message, renders⟩ := rendered_mem rendered reply
    exact renders.ended
  · exact (batchClosing_renders readable minted).ended

/-- A response begins with the label tag. -/
theorem labeledLines_first (name reference label : String) (buffer : List Bytes) :
    ∃ line others, labeledLines name reference label buffer = prependTag line ("label=" ++ label) :: others := by
  match buffer with
  | [] => exact ⟨_, [], rfl⟩
  | [line] => exact ⟨_, [], rfl⟩
  | first :: second :: rest =>
    rw [labeledLines_several]
    split
    · exact ⟨_, _, rfl⟩
    · exact ⟨_, _, rfl⟩

/-- A response that is read back under its label has a label without anything to escape. -/
theorem escaped_of_response {messages : List Message}
    (read : Reads limits (labeledLines name reference label buffer).flatten messages)
    (response : LabeledResponse label handled messages) : escapeValue label = label := by
  obtain ⟨first, rest, rfl, labelled, -⟩ := response.labelled
  obtain ⟨line, others, shape⟩ := labeledLines_first name reference label buffer
  obtain ⟨stop, more, opening, stops⟩ := prependTag_opening line ("label=" ++ label)
  obtain ⟨raws, split, readRaws⟩ := read
  obtain ⟨raw, otherRaws, rfl⟩ : ∃ raw others, raws = raw :: others := by
    cases raws with
    | nil => cases readRaws
    | cons raw others => exact ⟨raw, others, rfl⟩
  rw [List.map_cons, List.map_cons, List.cons.injEq] at readRaws
  rw [shape, opening] at split
  obtain ⟨pieces, head⟩ := splitOn_head newline
    ((0x40 :: (utf8 ("label=" ++ label) ++ stop :: more)) :: others).flatten
  rw [head, List.cons_append, List.cons.injEq] at split
  have start : raw <+: 0x40 :: (utf8 ("label=" ++ label) ++ stop :: (more ++ others.flatten)) := by
    rw [← split.1]
    simpa using List.takeWhile_prefix (l := ((0x40 :: (utf8 ("label=" ++ label) ++ stop :: more)) :: others).flatten)
      fun b : UInt8 => b != newline
  exact escaped_of_read stops start readRaws.1 labelled

/-- Every reply is a message with no label of its own. -/
def RepliesRead (limits : Limits) (buffer : List Bytes) : Prop :=
  ∀ line ∈ buffer, ∃ message, parse line limits = .ok message ∧ labels message = []

/-- The replies are messages, and the client reads them under the label. -/
def Answers (limits : Limits) (label : String) (buffer sent : List Bytes) : Prop :=
  ∃ handled messages, buffer.map (fun line => parse line limits) = handled.map .ok ∧
    Reads limits sent.flatten messages ∧ LabeledResponse label handled messages

theorem RepliesRead.messages (read : RepliesRead limits buffer) : ∃ handled : List Message,
    buffer.map (fun line => parse line limits) = handled.map .ok ∧ ∀ message ∈ handled, labels message = [] := by
  induction buffer with
  | nil => exact ⟨[], rfl, fun _ member => absurd member List.not_mem_nil⟩
  | cons line rest ih =>
    obtain ⟨message, parsed, unlabelled⟩ := read line List.mem_cons_self
    obtain ⟨handled, others, none⟩ := ih fun other member => read other (List.mem_cons_of_mem _ member)
    exact ⟨message :: handled, by rw [List.map_cons, List.map_cons, parsed, others],
      List.forall_mem_cons.mpr ⟨unlabelled, none⟩⟩

theorem parsed_rendered (ended : ∀ line ∈ buffer, Ended line)
    (parsed : buffer.map (fun line => parse line limits) = handled.map .ok) :
    List.Forall₂ (Renders limits) buffer handled := by
  induction buffer generalizing handled with
  | nil =>
    cases handled with
    | nil => exact .nil
    | cons message rest => cases parsed
  | cons line lines ih =>
    cases handled with
    | nil => cases parsed
    | cons message rest =>
      rw [List.map_cons, List.map_cons, List.cons.injEq] at parsed
      exact .cons ⟨ended line List.mem_cons_self, parsed.1⟩
        (ih (fun other member => ended other (List.mem_cons_of_mem _ member)) parsed.2)

/-- A labeled response is read back under the label the client sent exactly when the label has nothing to escape, every
reply is itself read, without a label, and the tags fit their budget. -/
theorem labeled_response (s : Server) (id : UInt64) {input : Bytes} {accepted limits : Limits} {message : Message}
    {label : String} {buffer : List Bytes}
    (readable : Readable limits s.info.name s.fx.history.msgidLead) (parsed : parse input accepted = .ok message)
    (begun : beginLabel (s.entry id).caps message = some label) (ended : ∀ line ∈ buffer, Ended line) :
    ∃ sent : List Bytes, (s.endLabel id label buffer).fx.mail = s.fx.mail ++ sent.map (Prod.mk id) ∧
      (Answers limits label buffer sent ↔ escapeValue label = label ∧ RepliesRead limits buffer ∧
        TagsFit limits s.info.name s.fx.history.nextMsgid.1 label buffer) := by
  have whole := beginLabel_whole parsed begun
  have minted := nextMsgid_reference readable.plain
  refine ⟨_, endLabel_mail s id label buffer, ?_⟩
  constructor
  · rintro ⟨handled, messages, replies, read, response⟩
    have escaped := escaped_of_response read response
    have rendered := parsed_rendered ended replies
    rw [reads_iff (labeledLines_ended readable minted rendered whole escaped)] at read
    have fit : TagsFit limits s.info.name s.fx.history.nextMsgid.1 label buffer := by
      intro added member
      obtain ⟨tag, message, shown, wellFormed, renders⟩ :=
        addedTags_render readable minted rendered whole escaped member
      by_contra beyond
      rw [shown] at beyond
      -- a line over the limit is sent all the same, and the client refuses it
      have refused := renders.prependTag_refused wellFormed beyond
      have sent := List.mem_map_of_mem (f := fun line => parse line limits) (addedTags_mem member)
      rw [read, shown, refused] at sent
      obtain ⟨_, -, impossible⟩ := List.mem_map.mp sent
      cases impossible
    obtain ⟨others, renders, labelled⟩ := labeledLines_renders readable minted rendered whole escaped fit
    -- there is only one way to read the lines
    have same : others = messages :=
      List.map_injective_iff.mpr (fun _ _ => Except.ok.inj) ((rendered_parse renders).symm.trans read)
    have unlabelled := labelled.mp (same ▸ response)
    refine ⟨escaped, fun line member => ?_, fit⟩
    have inHandled := List.mem_map_of_mem (f := fun line => parse line limits) member
    rw [replies] at inHandled
    obtain ⟨reply, isReply, isParsed⟩ := List.mem_map.mp inHandled
    exact ⟨reply, isParsed.symm, unlabelled reply isReply⟩
  · rintro ⟨escaped, readReplies, fit⟩
    obtain ⟨handled, replies, unlabelled⟩ := RepliesRead.messages readReplies
    have rendered := parsed_rendered ended replies
    obtain ⟨messages, renders, labelled⟩ := labeledLines_renders readable minted rendered whole escaped fit
    have lines := labeledLines_ended readable minted rendered whole escaped
    exact ⟨handled, messages, replies, (reads_iff lines messages).mpr (rendered_parse renders),
      labelled.mpr unlabelled⟩

/-- The server `alpha.example` with one client that negotiated labels. -/
def labelingServer : Server :=
  { Server.alpha with entries := AList.singleton 1 { nick := "alice", caps := [.labeledResponse], registered := true } }

theorem alpha_readable : Readable .ircv3 labelingServer.info.name labelingServer.fx.history.msgidLead where
  source := by decide
  clean := by
    have legal : (utf8 labelingServer.info.name).all (fun b => b != 0 && b != 13 && b != 10) = true := by decide
    intro b member
    simpa [and_assoc] using List.all_eq_true.mp legal b member
  solid := by decide
  plain := by
    have legal : labelingServer.fx.history.msgidLead.toList.all (fun c => !isEscaped c && c != '\x00') = true := by decide
    intro c member
    simpa using List.all_eq_true.mp legal c member
  fits := by decide

/-- A command of one parameter whose replies are to be labelled. -/
def labelledCommand (label verb : String) : Message :=
  ⟨[⟨"label", some label⟩], none, .named verb, ["x"]⟩

theorem labelledCommand_parse {label verb : String} (named : parseCommand (utf8 verb) = .ok (.named verb))
    (short : verb.utf8ByteSize ≤ 500) (whole : '\x00' ∉ label.toList)
    (fits : (utf8 (renderTags (labelledCommand label verb).tags)).length ≤ Limits.ircv3.maxTagBytes) :
    parse (utf8 (labelledCommand label verb).render) .ircv3 = .ok (labelledCommand label verb) := by
  have wellFormed : (labelledCommand label verb).WellFormed :=
    { tags := by simpa [labelledCommand] using labelTag_wellFormed whole
      source := by simp [labelledCommand]
      command := named
      params := show Trailing "x" by decide }
  refine wellFormed.reparse fits ?_
  have shown : (labelledCommand label verb).body = verb ++ " x" := by
    have single : renderParams ["x"] = " x" := by decide
    simp [labelledCommand, Message.body, Command.render, single]
  have size : (" x").utf8ByteSize = 2 := rfl
  have room : Limits.ircv3.maxBodyBytes = 512 := rfl
  rw [utf8_length, shown, String.utf8ByteSize_append]
  omega

/-- The reply to a ping. -/
def pongLine : Bytes :=
  Line.server "alpha.example" |>.command "PONG" |>.param "alpha.example" |>.trailing "x" |>.build

theorem pongLine_parse : parse pongLine .ircv3 = .ok (serverMessage "alpha.example" "PONG" ["alpha.example", "x"]) := by
  decide +kernel

theorem pongLine_ended : Ended pongLine := by
  refine ⟨utf8 ":alpha.example PONG alpha.example :x", by decide +kernel, ?_⟩
  have clean : (utf8 ":alpha.example PONG alpha.example :x").all (fun b => b != 0x0d && b != 0x0a) = true := by
    decide +kernel
  intro b member
  simpa using List.all_eq_true.mp clean b member

/-- One reply under a plain label. -/
theorem labeled_response_pong :
    ∃ sent : List Bytes,
      (labelingServer.endLabel 1 "a1" [pongLine]).fx.mail = labelingServer.fx.mail ++ sent.map (Prod.mk 1) ∧
        Answers .ircv3 "a1" [pongLine] sent := by
  have ping : parse (utf8 (labelledCommand "a1" "PING").render) .ircv3 = .ok (labelledCommand "a1" "PING") :=
    labelledCommand_parse (by decide) (by decide) (by decide) (by decide)
  have begun : beginLabel (labelingServer.entry 1).caps (labelledCommand "a1" "PING") = some "a1" := by decide
  have ended : ∀ line ∈ [pongLine], Ended line := List.forall_mem_singleton.mpr pongLine_ended
  obtain ⟨sent, mailed, answers⟩ := labeled_response labelingServer 1 alpha_readable ping begun ended
  refine ⟨sent, mailed, answers.mpr ⟨by decide, List.forall_mem_singleton.mpr ⟨_, pongLine_parse, by decide⟩, ?_⟩⟩
  exact List.forall_mem_singleton.mpr (by decide +kernel)

/-- A label with a space is not read back: it ends at the space. -/
theorem spaced_label_fails :
    utf8 (labelledCommand "a b" "PONG").render = utf8 "@label=a\\sb PONG x\r\n" ∧
      parse (utf8 (labelledCommand "a b" "PONG").render) .ircv3 = .ok (labelledCommand "a b" "PONG") ∧
      beginLabel (labelingServer.entry 1).caps (labelledCommand "a b" "PONG") = some "a b" ∧
      ∃ sent : List Bytes, (labelingServer.endLabel 1 "a b" []).fx.mail =
          labelingServer.fx.mail ++ sent.map (Prod.mk 1) ∧ ¬ Answers .ircv3 "a b" [] sent := by
  refine ⟨by decide, labelledCommand_parse (by decide) (by decide) (by decide) (by decide), by decide, _,
    endLabel_mail labelingServer 1 "a b" [], ?_⟩
  rintro ⟨handled, messages, -, read, response⟩
  have escaped := escaped_of_response read response
  exact absurd escaped (by decide)

end Ferrixd
