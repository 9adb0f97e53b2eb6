import Ferrixd.Mask

/-! # The language of a mask

What a glob pattern denotes, and what the matching loop accepts: the loop tries a literal before it tries a `*`, so a
`*` of the pattern that faces a `*` of the text is taken for that character. -/

namespace Ferrixd

/-- The texts that a pattern denotes. -/
inductive Glob : List Char → List Char → Prop where
  | done : Glob [] []
  | run (swallowed : List Char) {pattern text : List Char} (rest : Glob pattern text) :
      Glob ('*' :: pattern) (swallowed ++ text)
  | any (c : Char) {pattern text : List Char} (rest : Glob pattern text) : Glob ('?' :: pattern) (c :: text)
  | literal {p c : Char} (plain : p ≠ '*' ∧ p ≠ '?') (equal : maskEqCi p c = true) {pattern text : List Char}
      (rest : Glob pattern text) : Glob (p :: pattern) (c :: text)

/-- Texts that match in a way in which a `*` that faces a `*` swallows nothing else. -/
inductive StrictGlob : List Char → List Char → Prop where
  | done : StrictGlob [] []
  | run (swallowed : List Char) {pattern text : List Char}
      (facing : (swallowed ++ text).head? = some '*' → swallowed = ['*']) (rest : StrictGlob pattern text) :
      StrictGlob ('*' :: pattern) (swallowed ++ text)
  | any (c : Char) {pattern text : List Char} (rest : StrictGlob pattern text) : StrictGlob ('?' :: pattern) (c :: text)
  | literal {p c : Char} (plain : p ≠ '*' ∧ p ≠ '?') (equal : maskEqCi p c = true) {pattern text : List Char}
      (rest : StrictGlob pattern text) : StrictGlob (p :: pattern) (c :: text)

theorem StrictGlob.glob {pattern text : List Char} (strict : StrictGlob pattern text) : Glob pattern text := by
  induction strict with
  | done => exact .done
  | run swallowed _ _ ih => exact .run swallowed ih
  | any c _ ih => exact .any c ih
  | literal plain equal _ ih => exact .literal plain equal ih

/-- Where no `*` is in the text, none can be faced. -/
theorem Glob.strict {pattern text : List Char} (glob : Glob pattern text) (starless : '*' ∉ text) :
    StrictGlob pattern text := by
  induction glob with
  | done => exact .done
  | run swallowed _ ih =>
    refine .run swallowed (fun facing => ?_) (ih fun member => starless (List.mem_append_right _ member))
    exact absurd (List.mem_of_mem_head? facing) starless
  | any c _ ih => exact .any c (ih fun member => starless (List.mem_cons_of_mem _ member))
  | literal plain equal _ ih =>
    exact .literal plain equal (ih fun member => starless (List.mem_cons_of_mem _ member))

/-! ## Characters -/

theorem maskEqCi_refl (c : Char) : maskEqCi c c = true :=
  beq_self_eq_true _

/-- No other character equals a `*` or a `?`. -/
theorem maskEqCi_star {c : Char} : maskEqCi '*' c = true ↔ c = '*' := by
  rw [maskEqCi, beq_iff_eq]
  exact eq_comm.trans (CaseMapping.toLower_eq (by decide))

/-- Whether the loop takes a pattern character for this one. -/
def takes (p c : Char) : Bool :=
  p == '?' || maskEqCi p c

namespace StrictGlob

variable {p c : Char} {pattern text : List Char}

/-- Where the loop takes a character, so does the language. -/
theorem cons_iff (taken : takes p c = true) : StrictGlob (p :: pattern) (c :: text) ↔ StrictGlob pattern text := by
  rw [takes, Bool.or_eq_true, beq_iff_eq] at taken
  by_cases isAny : p = '?'
  · subst isAny
    constructor
    · intro strict
      cases strict with
      | any _ rest => exact rest
      | literal plain => exact absurd rfl plain.2
    · exact .any c
  · by_cases isStar : p = '*'
    · subst isStar
      -- a `*` that faces a `*` stands for just that one
      obtain rfl := maskEqCi_star.mp (taken.resolve_left isAny)
      constructor
      · intro strict
        generalize whole : '*' :: text = faced at strict
        cases strict with
        | run swallowed facing rest =>
          obtain rfl := facing (whole ▸ rfl)
          obtain rfl := (List.cons.inj whole).2
          exact rest
        | literal plain => exact absurd rfl plain.1
      · intro rest
        exact .run ['*'] (fun _ => rfl) rest
    · constructor
      · intro strict
        generalize whole : c :: text = faced at strict
        cases strict with
        | run swallowed facing rest => exact absurd rfl isStar
        | any _ rest => exact absurd rfl isAny
        | literal _ _ rest =>
          obtain ⟨-, rfl⟩ := List.cons.inj whole
          exact rest
      · exact .literal ⟨isStar, isAny⟩ (taken.resolve_left isAny)

/-- Whatever a `*` swallows, what follows it is read at a suffix. -/
theorem after_star (strict : StrictGlob ('*' :: pattern) text) : ∃ suffix, suffix <:+ text ∧ StrictGlob pattern suffix := by
  cases strict with
  | run swallowed _ rest => exact ⟨_, List.suffix_append _ _, rest⟩
  | literal plain => exact absurd rfl plain.1

/-- Where the loop meets a `*` it does not take for a character, the language has every suffix. -/
theorem star_iff (unfaced : text.head? ≠ some '*') :
    StrictGlob ('*' :: pattern) text ↔ ∃ suffix, suffix <:+ text ∧ StrictGlob pattern suffix := by
  constructor
  · exact after_star
  · rintro ⟨suffix, ⟨swallowed, rfl⟩, rest⟩
    exact .run swallowed (fun facing => absurd facing unfaced) rest

theorem not_cons (untaken : takes p c = false) (notStar : p ≠ '*') : ¬ StrictGlob (p :: pattern) (c :: text) := by
  intro strict
  rw [takes, Bool.or_eq_false_iff, beq_eq_false_iff_ne] at untaken
  generalize whole : c :: text = faced at strict
  cases strict with
  | run => exact notStar rfl
  | any => exact untaken.1 rfl
  | literal _ equal =>
    obtain ⟨rfl, -⟩ := List.cons.inj whole
    rw [untaken.2] at equal
    cases equal

theorem nil_iff : StrictGlob pattern [] ↔ (pattern.all fun p => p == '*') = true := by
  induction pattern with
  | nil => exact iff_of_true .done rfl
  | cons p rest ih =>
    rw [List.all_cons, Bool.and_eq_true, beq_iff_eq, ← ih]
    constructor
    · intro strict
      generalize empty : ([] : List Char) = text at strict
      cases strict with
      | run swallowed _ rest =>
        obtain ⟨rfl, rfl⟩ := List.append_eq_nil_iff.mp empty.symm
        exact ⟨rfl, rest⟩
      | any => cases empty
      | literal => cases empty
    · rintro ⟨rfl, rest⟩
      exact .run [] (fun facing => by cases facing) rest

theorem of_nil (strict : StrictGlob [] text) : text = [] := by
  cases strict
  rfl

end StrictGlob

/-! ## The loop -/

/-- The loop took every character of one list for that of the other. -/
def Taken (scanned passed : List Char) : Prop :=
  List.Forall₂ (fun p c => takes p c = true) scanned passed

/-- Read at the text that it was scanned against, a scanned part takes just that. -/
theorem Taken.whole {scanned passed pattern text : List Char} (taken : Taken scanned passed) :
    StrictGlob (scanned ++ pattern) (passed ++ text) ↔ StrictGlob pattern text := by
  induction taken with
  | nil => exact .rfl
  | cons first _ ih => exact (StrictGlob.cons_iff first).trans ih

/-- Whatever text a scanned part of the pattern is read at, it needs no less than what it was scanned against. -/
theorem Taken.suffix {scanned passed pattern text suffix : List Char} (taken : Taken scanned passed)
    (within : suffix <:+ passed ++ text) (strict : StrictGlob (scanned ++ pattern) suffix) :
    ∃ rest, rest <:+ text ∧ StrictGlob pattern rest := by
  induction taken generalizing suffix with
  | nil => exact ⟨suffix, within, strict⟩
  | @cons p c scanned passed first _ ih =>
    rw [List.cons_append] at within strict
    -- a suffix that is not the whole text lies in what follows the first character
    have later : ∀ {shorter : List Char}, shorter <:+ suffix → shorter ≠ c :: (passed ++ text) →
        shorter <:+ passed ++ text := by
      intro shorter inner notWhole
      exact (List.suffix_cons_iff.mp (inner.trans within)).resolve_left notWhole
    rcases List.suffix_cons_iff.mp within with rfl | proper
    · exact ih (List.suffix_refl _) ((StrictGlob.cons_iff first).mp strict)
    · cases suffix with
      | nil =>
        rw [StrictGlob.nil_iff, List.all_cons, Bool.and_eq_true, ← StrictGlob.nil_iff] at strict
        exact ih (List.nil_suffix) strict.2
      | cons d suffix =>
        have tail : suffix <:+ passed ++ text := (List.suffix_cons d suffix).trans proper
        by_cases same : takes p d = true
        · exact ih tail ((StrictGlob.cons_iff same).mp strict)
        · by_cases isStar : p = '*'
          · subst isStar
            have unfaced : (d :: suffix).head? ≠ some '*' := by
              rintro ⟨⟩
              exact same (by rw [takes, maskEqCi_refl, Bool.or_true])
            obtain ⟨inner, isSuffix, rest⟩ := (StrictGlob.star_iff unfaced).mp strict
            exact ih (isSuffix.trans proper) rest
          · exact absurd strict (StrictGlob.not_cons (by simpa using same) isStar)

/-- With a `*` saved, the loop looks for a suffix of what that has not swallowed. -/
theorem maskLoop_saved {scanned passed pattern text : List Char} (taken : Taken scanned passed) :
    maskLoop pattern text (some (scanned ++ pattern, passed ++ text)) = true ↔
      ∃ suffix, suffix <:+ passed ++ text ∧ StrictGlob (scanned ++ pattern) suffix := by
  -- by the text that is left to swallow, then by the pattern that is left to scan
  obtain ⟨bound, within⟩ : ∃ bound, (passed ++ text).length ≤ bound := ⟨_, le_refl _⟩
  induction bound generalizing scanned passed pattern text with
  | zero =>
    obtain ⟨rfl, rfl⟩ := List.append_eq_nil_iff.mp (List.eq_nil_of_length_eq_zero (Nat.le_zero.mp within))
    cases taken
    rw [maskLoop, ← StrictGlob.nil_iff]
    simp
  | succ bound shorter =>
    -- the saved `*` swallows one character more when nothing matches where it is
    have backtrack : ∀ {after swallowed : List Char} {first : Char}, (first :: swallowed).length ≤ bound + 1 →
        ¬ StrictGlob after (first :: swallowed) →
        (maskLoop after swallowed (some (after, swallowed)) = true ↔
          ∃ suffix, suffix <:+ first :: swallowed ∧ StrictGlob after suffix) := by
      intro after swallowed first small fails
      have next := @shorter [] [] after swallowed .nil (by simpa using small)
      refine Iff.trans next ?_
      constructor
      · rintro ⟨suffix, inside, strict⟩
        exact ⟨suffix, inside.trans (List.suffix_cons _ _), strict⟩
      · rintro ⟨suffix, inside, strict⟩
        rcases List.suffix_cons_iff.mp inside with rfl | inside
        · exact absurd strict fails
        · exact ⟨suffix, inside, strict⟩
    clear shorter
    induction pattern generalizing scanned passed text with
    | nil =>
      cases text with
      | nil =>
        rw [maskLoop]
        exact iff_of_true rfl ⟨passed ++ [], List.suffix_refl _, taken.whole.mpr .done⟩
      | cons c text =>
        rw [maskLoop.eq_def]
        have fails : ¬ StrictGlob (scanned ++ []) (passed ++ c :: text) := by
          intro strict
          exact List.cons_ne_nil _ _ (taken.whole.mp strict).of_nil
        obtain ⟨first, swallowed, whole⟩ :=
          List.exists_cons_of_ne_nil (List.append_ne_nil_of_right_ne_nil passed (List.cons_ne_nil c text))
        rw [whole] at within fails ⊢
        exact backtrack within fails
    | cons p pattern ih =>
      cases text with
      | nil =>
        rw [maskLoop, ← StrictGlob.nil_iff]
        constructor
        · exact fun strict => ⟨passed ++ [], List.suffix_refl _, taken.whole.mpr strict⟩
        · rintro ⟨suffix, inside, strict⟩
          obtain ⟨rest, last, read⟩ := taken.suffix inside strict
          rwa [List.suffix_nil.mp last] at read
      | cons c text =>
        rw [maskLoop.eq_def]
        dsimp only
        split
        · rename_i first
          have longer : Taken (scanned ++ [p]) (passed ++ [c]) :=
            List.rel_append taken (.cons first .nil)
          have next := @ih (scanned ++ [p]) (passed ++ [c]) text longer
          rw [List.append_assoc, List.append_assoc] at next
          exact next within
        · rename_i untaken
          have fails : takes p c = false := Bool.eq_false_iff.mpr untaken
          split
          · -- the new `*` is the one that swallows from here on
            rename_i star
            obtain rfl := beq_iff_eq.mp star
            have unfaced : (c :: text).head? ≠ some '*' := by
              rintro ⟨⟩
              exact untaken (by rw [maskEqCi_refl, Bool.or_true])
            refine Iff.trans (@ih [] [] (c :: text) .nil ?_) ?_
            · rw [List.length_append] at within
              exact Nat.le_trans (Nat.le_add_left _ _) within
            rw [List.nil_append, List.nil_append]
            constructor
            · intro found
              exact ⟨passed ++ c :: text, List.suffix_refl _, taken.whole.mpr ((StrictGlob.star_iff unfaced).mpr found)⟩
            · rintro ⟨suffix, inside, strict⟩
              obtain ⟨rest, last, read⟩ := taken.suffix inside strict
              obtain ⟨inner, isSuffix, read⟩ := read.after_star
              exact ⟨inner, isSuffix.trans last, read⟩
          · rename_i notStar
            have lost : ¬ StrictGlob (scanned ++ p :: pattern) (passed ++ c :: text) := by
              intro strict
              exact StrictGlob.not_cons fails (by simpa using notStar) (taken.whole.mp strict)
            obtain ⟨first, swallowed, whole⟩ :=
              List.exists_cons_of_ne_nil (List.append_ne_nil_of_right_ne_nil passed (List.cons_ne_nil c text))
            rw [whole] at within lost ⊢
            exact backtrack within lost

/-- Before that, it follows the one way there is. -/
theorem maskLoop_unsaved (pattern text : List Char) : maskLoop pattern text none = true ↔ StrictGlob pattern text := by
  induction text generalizing pattern with
  | nil => rw [maskLoop, StrictGlob.nil_iff]
  | cons c text ih =>
    cases pattern with
    | nil =>
      rw [maskLoop.eq_def]
      exact iff_of_false Bool.false_ne_true fun strict => List.cons_ne_nil _ _ strict.of_nil
    | cons p pattern =>
      rw [maskLoop.eq_def]
      dsimp only
      split
      · rename_i taken
        rw [ih, StrictGlob.cons_iff taken]
      · rename_i untaken
        split
        · rename_i star
          obtain rfl := beq_iff_eq.mp star
          -- a `*` of the text would have been taken as a literal before
          have unfaced : (c :: text).head? ≠ some '*' := by
            rintro ⟨⟩
            exact untaken (by rw [maskEqCi_refl, Bool.or_true])
          rw [StrictGlob.star_iff unfaced]
          exact @maskLoop_saved [] [] pattern (c :: text) .nil
        · rename_i notStar
          refine iff_of_false Bool.false_ne_true (StrictGlob.not_cons ?_ ?_)
          · exact Bool.eq_false_iff.mpr untaken
          · simpa using notStar

/-! ## The mask -/

theorem maskMatches_strict (pattern text : String) :
    maskMatches pattern text = true ↔ StrictGlob pattern.toList text.toList :=
  maskLoop_unsaved _ _

/-- On a text without `*`, the match is the one the pattern denotes. -/
theorem maskMatches_starless {pattern text : String} (starless : '*' ∉ text.toList) :
    maskMatches pattern text = true ↔ Glob pattern.toList text.toList := by
  rw [maskMatches_strict]
  exact ⟨StrictGlob.glob, fun glob => glob.strict starless⟩

/-- A mask never matches a text that it does not denote, and misses one exactly when a `*` of the mask would have to
swallow more than the `*` of the text that it faces. -/
theorem maskMatches_iff (pattern text : String) :
    (maskMatches pattern text = true ↔ Glob pattern.toList text.toList) ↔
      (Glob pattern.toList text.toList → StrictGlob pattern.toList text.toList) := by
  rw [maskMatches_strict]
  constructor
  · intro agrees glob
    exact agrees.mpr glob
  · intro strict
    exact ⟨StrictGlob.glob, strict⟩

/-- The mask of a host's unverified idents misses the user whose ident begins with a `*`. -/
theorem starred_ident_missed :
    maskMatches "*!~*@evil" "m!~*x@evil" = false ∧ Glob "*!~*@evil".toList "m!~*x@evil".toList := by
  constructor
  · simp [maskMatches, maskLoop, maskEqCi]
  · apply Glob.run ['m']
    iterate 2 apply Glob.literal (by decide) (by decide)
    apply Glob.run ['*', 'x']
    iterate 5 apply Glob.literal (by decide) (by decide)
    exact .done

end Ferrixd
