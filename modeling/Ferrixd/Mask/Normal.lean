import Mathlib
import Ferrixd.Command.Mode
import Ferrixd.Mask.Language

/-! # Normalised masks

A list mask is brought into the form `nick!user@host` by its separators alone.  What comes out may be a mask that no
user has: `normalisable` says from which masks it is not. -/

namespace Ferrixd

/-! ## What is wanted -/

/-- The masks that users have: nicks are checked, names and hosts are whatever they were set to. -/
def UserMask (text : String) : Prop :=
  ∃ nick user host, isValidNick nick = true ∧ user ≠ "" ∧ host ≠ "" ∧ text = hostmask nick user host

/-- A `!`, and later on a `@`. -/
def wellShaped (mask : String) : Bool :=
  (mask.toList.dropWhile (· != '!')).contains '@'

/-- Normalising a mask again changes nothing, the result has the shape and matches some user, and a mask that has the
shape is left alone. -/
structure Normalised (raw : String) : Prop where
  idempotent : normalizeBanMask (normalizeBanMask raw) = normalizeBanMask raw
  shaped : wellShaped (normalizeBanMask raw) = true
  unchanged : wellShaped raw = true → normalizeBanMask raw = raw
  alive : ∃ text, UserMask text ∧ maskMatches (normalizeBanMask raw) text = true

/-- A mask for an account instead of a user; only these are matched otherwise. -/
def isExtended (mask : String) : Bool :=
  startsWith mask "~a:"

/-! ## When a mask matches a user -/

/-- Whether a character can stand after so many others in a nick. -/
def isNickAt (count : Nat) (c : Char) : Bool :=
  decide (count < maxNickLen) && if count = 0 then isNickStart c else isNickRest c

/-- After `count` characters for those of a nick, the pattern can end the nick: with a `*`, or with the `!` and an
address. -/
def endsNick (address : List Char → Bool) : Nat → List Char → Bool
  | _, [] => false
  | count, p :: rest =>
    p == '*' || ((p == '!' || p == '?') && decide (0 < count) && address rest) ||
      ((isNickAt count p || (p == '?' && decide (count < maxNickLen))) && endsNick address (count + 1) rest)

/-- Whether a pattern matches some `user@host`: a `*` can stand for everything that is missing. -/
def isAddress (pattern : List Char) : Bool :=
  pattern.contains '*' || (pattern.drop 1).dropLast.any fun p => p == '@' || p == '?'

/-- The masks that normalisation keeps, or makes, matching and in shape. -/
def normalisable (raw : String) : Bool :=
  !startsWith raw "~" &&
    if raw.toList.contains '!' then
      if raw.toList.contains '@' then wellShaped raw && endsNick isAddress 0 raw.toList
      else endsNick (fun _ => true) 0 raw.toList
    else raw.toList.contains '@' || endsNick (fun _ => true) 0 (raw.toList ++ ['!'])

/-! ## Characters of nicks -/

/-- Case makes no difference to where a character can stand in a nick. -/
theorem isNickAt_toLower (count : Nat) (c : Char) : isNickAt count c.toLower = isNickAt count c := by
  by_cases alpha : c.isAlpha = true
  · have alphaLower : c.toLower.isAlpha = true := by rw [Char.isAlpha_toLower_eq_isAlpha, alpha]
    simp only [isNickAt, isNickStart, isNickRest, Char.isAlphanum, alpha, alphaLower, Bool.true_or]
  · -- what is no letter has no other case
    have notUpper : ¬c.isUpper = true := fun upper => alpha (Bool.or_eq_true_iff.mpr (.inl upper))
    rw [Char.toLower_eq_of_not_isUpper notUpper]

theorem isNickAt_of_maskEqCi {count : Nat} {p c : Char} (equal : maskEqCi p c = true)
    (fits : isNickAt count c = true) : isNickAt count p = true := by
  rw [maskEqCi, beq_iff_eq] at equal
  rw [← isNickAt_toLower, equal, isNickAt_toLower, fits]

/-- The signs of a pattern and the separators stand in no nick. -/
theorem isNickAt_sign (count : Nat) {c : Char} (sign : c ∈ ['*', '?', '!', '@', '~']) : isNickAt count c = false := by
  have apart : ['*', '?', '!', '@', '~'].all (fun c => !isNickStart c && !isNickRest c) = true := by decide
  have neither := List.all_eq_true.mp apart c sign
  rw [Bool.and_eq_true, Bool.not_eq_true', Bool.not_eq_true'] at neither
  rw [isNickAt, neither.1, neither.2, ite_self, Bool.and_false]

/-- A nick, read on after so many characters. -/
def isNickFrom : Nat → List Char → Bool
  | _, [] => true
  | count, c :: rest => isNickAt count c && isNickFrom (count + 1) rest

theorem isNickFrom_succ {count : Nat} (room : count < maxNickLen) (rest : List Char) :
    isNickFrom (count + 1) rest = (decide (rest.length + (count + 1) ≤ maxNickLen) && rest.all isNickRest) := by
  induction rest generalizing count with
  | nil =>
    have fits : 0 + (count + 1) ≤ maxNickLen := by omega
    rw [isNickFrom, List.all_nil, List.length_nil, decide_eq_true fits, Bool.true_and]
  | cons c rest ih =>
    rw [isNickFrom, isNickAt, if_neg (Nat.succ_ne_zero count), List.all_cons, List.length_cons]
    by_cases more : count + 1 < maxNickLen
    · have same : rest.length + 1 + (count + 1) = rest.length + (count + 1 + 1) := by omega
      rw [ih more, same, decide_eq_true more, Bool.true_and, ← Bool.and_assoc, ← Bool.and_assoc,
        Bool.and_comm (isNickRest c)]
    · have long : ¬ rest.length + 1 + (count + 1) ≤ maxNickLen := by omega
      rw [decide_eq_false more, decide_eq_false long, Bool.false_and, Bool.false_and, Bool.false_and]

theorem isValidNick_iff (nick : String) :
    isValidNick nick = true ↔ nick.toList ≠ [] ∧ isNickFrom 0 nick.toList = true := by
  rw [isValidNick]
  cases nick.toList with
  | nil => simp
  | cons first rest =>
    have room : 0 < maxNickLen := by decide
    simp only [isNickFrom, isNickFrom_succ room, isNickAt, decide_eq_true room, if_true, Bool.true_and,
      Nat.zero_add, Bool.and_assoc, ne_eq, reduceCtorEq, not_false_eq_true, true_and]

/-! ## The address -/

variable {pattern text user host : List Char}

/-- A text that the pattern matches: nothing for a `*`, and an `x` for a `?`. -/
def fill (pattern : List Char) : List Char :=
  (pattern.filter (· != '*')).map fun p => if p = '?' then 'x' else p

theorem star_notMem_fill (pattern : List Char) : '*' ∉ fill pattern := by
  intro member
  obtain ⟨p, kept, same⟩ := List.mem_map.mp member
  have notStar := (List.mem_filter.mp kept).2
  split at same
  · cases same
  · rw [same] at notStar
    cases notStar

theorem glob_fill (pattern : List Char) : Glob pattern (fill pattern) := by
  induction pattern with
  | nil => exact .done
  | cons p rest ih =>
    by_cases star : p = '*'
    · rw [star]
      exact .run [] ih
    have shape : fill (p :: rest) = (if p = '?' then 'x' else p) :: fill rest := by
      rw [fill, List.filter_cons_of_pos (by simpa using star)]
      rfl
    rw [shape]
    by_cases any : p = '?'
    · rw [any, if_pos rfl]
      exact .any 'x' ih
    · rw [if_neg any]
      exact .literal ⟨star, any⟩ (maskEqCi_refl p) ih

/-- Patterns match appended texts one after the other. -/
theorem Glob.append {more rest : List Char} (glob : Glob pattern text) (after : Glob more rest) :
    Glob (pattern ++ more) (text ++ rest) := by
  induction glob with
  | done => exact after
  | run swallowed _ ih =>
    rw [List.append_assoc]
    exact .run swallowed ih
  | any c _ ih => exact .any c ih
  | literal plain equal _ ih => exact .literal plain equal ih

theorem length_fill (starless : '*' ∉ pattern) : (fill pattern).length = pattern.length := by
  rw [fill, List.length_map, List.filter_eq_self.mpr]
  intro p member
  refine bne_iff_ne.mpr fun same => ?_
  rw [same] at member
  exact starless member

/-- Only a sign for `@` or for any character stands at the place of a `@`. -/
theorem Glob.split_at (glob : Glob pattern (user ++ '@' :: host)) (starless : '*' ∉ pattern) :
    ∃ before sign after, pattern = before ++ sign :: after ∧ before.length = user.length ∧
      after.length = host.length ∧ (sign = '@' ∨ sign = '?') := by
  -- without a `*` every sign stands for one character
  have lengths : ∀ {pattern text : List Char}, Glob pattern text → '*' ∉ pattern →
      pattern.length = text.length := by
    intro pattern text glob
    induction glob with
    | done => exact fun _ => rfl
    | run swallowed _ _ => exact fun starless => absurd List.mem_cons_self starless
    | any c _ ih => exact fun starless => congrArg (· + 1) (ih (List.not_mem_of_not_mem_cons starless))
    | literal _ _ _ ih => exact fun starless => congrArg (· + 1) (ih (List.not_mem_of_not_mem_cons starless))
  induction user generalizing pattern with
  | nil =>
    rw [List.nil_append] at glob
    generalize whole : '@' :: host = text at glob
    cases glob with
    | done => cases whole
    | run => exact absurd List.mem_cons_self starless
    | @any c pattern text rest =>
      cases whole
      exact ⟨[], '?', pattern, rfl, rfl, lengths rest (List.not_mem_of_not_mem_cons starless), .inr rfl⟩
    | @literal p c plain equal pattern text rest =>
      cases whole
      rw [maskEqCi, beq_iff_eq] at equal
      have sign : p = '@' := (CaseMapping.toLower_eq (by decide)).mp (equal.trans (by rfl))
      exact ⟨[], p, pattern, rfl, rfl, lengths rest (List.not_mem_of_not_mem_cons starless), .inl sign⟩
  | cons c user ih =>
    rw [List.cons_append] at glob
    generalize whole : c :: (user ++ '@' :: host) = text at glob
    have step : ∀ {p : Char} {pattern : List Char}, Glob pattern (user ++ '@' :: host) → '*' ∉ p :: pattern →
        ∃ before sign after, p :: pattern = before ++ sign :: after ∧ before.length = (c :: user).length ∧
          after.length = host.length ∧ (sign = '@' ∨ sign = '?') := by
      intro p pattern rest starless
      obtain ⟨before, sign, after, shape, left, right, isSign⟩ := ih rest (List.not_mem_of_not_mem_cons starless)
      exact ⟨p :: before, sign, after, by rw [shape]; rfl, congrArg (· + 1) left, right, isSign⟩
    cases glob with
    | done => cases whole
    | run => exact absurd List.mem_cons_self starless
    | any d rest =>
      cases whole
      exact step rest starless
    | literal plain equal rest =>
      cases whole
      exact step rest starless

/-- What stands between the first and the last of a list. -/
theorem mem_between {p : Char} {list : List Char} :
    p ∈ (list.drop 1).dropLast ↔ ∃ before after, before ≠ [] ∧ after ≠ [] ∧ list = before ++ p :: after := by
  constructor
  · intro member
    obtain ⟨before, after, shape⟩ := List.append_of_mem member
    cases list with
    | nil => cases member
    | cons first rest =>
      rw [List.drop_succ_cons, List.drop_zero] at shape member
      have nonempty : rest ≠ [] := by
        intro empty
        rw [empty] at member
        cases member
      refine ⟨first :: before, after ++ [rest.getLast nonempty], List.cons_ne_nil _ _,
        List.append_ne_nil_of_right_ne_nil _ (List.cons_ne_nil _ _), ?_⟩
      have ends := List.dropLast_append_getLast nonempty
      rw [shape] at ends
      have whole := congrArg (first :: ·) ends.symm
      simpa using whole
  · rintro ⟨before, after, some, more, rfl⟩
    obtain ⟨first, before, rfl⟩ := List.exists_cons_of_ne_nil some
    rw [List.cons_append, List.drop_succ_cons, List.drop_zero, List.dropLast_append_of_ne_nil (List.cons_ne_nil _ _),
      List.dropLast_cons_of_ne_nil more]
    simp

/-- An address pattern is one that matches an address. -/
theorem isAddress_of_glob (glob : Glob pattern (user ++ '@' :: host)) (named : user ≠ []) (hosted : host ≠ []) :
    isAddress pattern = true := by
  rw [isAddress, Bool.or_eq_true, List.contains_iff_mem]
  by_cases star : '*' ∈ pattern
  · exact .inl star
  · obtain ⟨before, sign, after, shape, left, right, isSign⟩ := glob.split_at star
    refine .inr (List.any_eq_true.mpr ⟨sign, mem_between.mpr ⟨before, after, ?_, ?_, shape⟩, by simpa using isSign⟩)
    · intro empty
      rw [empty] at left
      exact named (List.length_eq_zero_iff.mp left.symm)
    · intro empty
      rw [empty] at right
      exact hosted (List.length_eq_zero_iff.mp right.symm)

theorem glob_of_isAddress (address : isAddress pattern = true) :
    ∃ user host, user ≠ [] ∧ host ≠ [] ∧ '*' ∉ user ++ '@' :: host ∧ Glob pattern (user ++ '@' :: host) := by
  by_cases star : '*' ∈ pattern
  · -- the `*` stands for the end of the name, the `@` and the beginning of the host
    obtain ⟨before, after, rfl⟩ := List.append_of_mem star
    refine ⟨fill before ++ ['x'], 'x' :: fill after, by simp, by simp, ?_, ?_⟩
    · have left := star_notMem_fill before
      have right := star_notMem_fill after
      simp [left, right]
    · have glob := (glob_fill before).append (.run ['x', '@', 'x'] (glob_fill after))
      simpa using glob
  · rw [isAddress, Bool.or_eq_true, List.contains_iff_mem] at address
    -- the sign for the `@` has something on both sides
    obtain ⟨sign, between, isSign⟩ := List.any_eq_true.mp (address.resolve_left star)
    obtain ⟨before, after, named, hosted, rfl⟩ := mem_between.mp between
    have starlessLeft : '*' ∉ before := fun member => star (List.mem_append_left _ member)
    have starlessRight : '*' ∉ after := fun member => star (List.mem_append_right _ (List.mem_cons_of_mem _ member))
    refine ⟨fill before, fill after, ?_, ?_, ?_, ?_⟩
    · rw [← List.length_pos_iff, length_fill starlessLeft, List.length_pos_iff]
      exact named
    · rw [← List.length_pos_iff, length_fill starlessRight, List.length_pos_iff]
      exact hosted
    · have left := star_notMem_fill before
      have right := star_notMem_fill after
      simp [left, right]
    · refine (glob_fill before).append ?_
      rw [Bool.or_eq_true, beq_iff_eq, beq_iff_eq] at isSign
      rcases isSign with same | same
      · rw [same]
        exact .literal ⟨by decide, by decide⟩ (maskEqCi_refl '@') (glob_fill after)
      · rw [same]
        exact .any '@' (glob_fill after)

/-! ## The nick -/

section Nick

variable {address : List Char → Bool} {nick : List Char} {count : Nat}

/-- What matches a nick and an address ends the nick. -/
theorem endsNick_of_glob
    (sound : ∀ rest, Glob rest (user ++ '@' :: host) → address rest = true)
    (glob : Glob pattern (nick ++ '!' :: (user ++ '@' :: host))) (isNick : isNickFrom count nick = true)
    (nonempty : 0 < count + nick.length) : endsNick address count pattern = true := by
  induction nick generalizing pattern count with
  | nil =>
    rw [List.nil_append] at glob
    generalize whole : '!' :: (user ++ '@' :: host) = text at glob
    -- at the `!` of the mask: a `*` would do, else only a `!` or a `?`
    cases glob with
    | done => cases whole
    | run => simp [endsNick]
    | any c rest =>
      cases whole
      have some : 0 < count := nonempty
      simp [endsNick, some, sound _ rest]
    | @literal p c plain equal pattern text rest =>
      cases whole
      rw [maskEqCi, beq_iff_eq] at equal
      have sign : p = '!' := (CaseMapping.toLower_eq (by decide)).mp (equal.trans (by rfl))
      have some : 0 < count := nonempty
      simp [endsNick, sign, some, sound _ rest]
  | cons c nick ih =>
    rw [isNickFrom, Bool.and_eq_true] at isNick
    rw [List.cons_append] at glob
    generalize whole : c :: (nick ++ '!' :: (user ++ '@' :: host)) = text at glob
    cases glob with
    | done => cases whole
    | run => simp [endsNick]
    | any d rest =>
      cases whole
      have room : count < maxNickLen := by
        have fits := isNick.1
        rw [isNickAt, Bool.and_eq_true] at fits
        exact of_decide_eq_true fits.1
      have later := ih rest isNick.2 (by omega)
      simp [endsNick, room, later]
    | literal plain equal rest =>
      cases whole
      have later := ih rest isNick.2 (by omega)
      simp [endsNick, isNickAt_of_maskEqCi equal isNick.1, later]

/-- A pattern that ends a nick matches one with an address. -/
theorem glob_of_endsNick
    (complete : ∀ rest, address rest = true → ∃ user host, user ≠ [] ∧ host ≠ [] ∧
      '*' ∉ user ++ '@' :: host ∧ Glob rest (user ++ '@' :: host))
    (ends : endsNick address count pattern = true) :
    ∃ nick user host, isNickFrom count nick = true ∧ 0 < count + nick.length ∧ user ≠ [] ∧ host ≠ [] ∧
      '*' ∉ nick ++ '!' :: (user ++ '@' :: host) ∧ Glob pattern (nick ++ '!' :: (user ++ '@' :: host)) := by
  induction pattern generalizing count with
  | nil => cases ends
  | cons p rest ih =>
    rw [endsNick, Bool.or_eq_true, Bool.or_eq_true, Bool.and_eq_true, Bool.and_eq_true, Bool.and_eq_true] at ends
    rcases ends with (star | ⟨⟨sign, some⟩, isAddress⟩) | ⟨fits, later⟩
    · -- the `*` stands for what is missing of the nick, and for all but the end of the host
      have starless := star_notMem_fill rest
      have swallowed : ∀ nick : List Char, Glob ('*' :: rest) (nick ++ '!' :: (['x'] ++ '@' :: 'x' :: fill rest)) := by
        intro nick
        have glob := Glob.run (nick ++ ['!', 'x', '@', 'x']) (glob_fill rest)
        simpa using glob
      rw [beq_iff_eq.mp star]
      cases count with
      | zero =>
        refine ⟨['x'], ['x'], 'x' :: fill rest, by decide, by decide, List.cons_ne_nil _ _, List.cons_ne_nil _ _, ?_,
          swallowed _⟩
        simpa using starless
      | succ count =>
        refine ⟨[], ['x'], 'x' :: fill rest, rfl, Nat.succ_pos count, List.cons_ne_nil _ _, List.cons_ne_nil _ _, ?_,
          swallowed _⟩
        simpa using starless
    · obtain ⟨user, host, named, hosted, starless, glob⟩ := complete rest isAddress
      refine ⟨[], user, host, rfl, of_decide_eq_true some, named, hosted, ?_, ?_⟩
      · simpa using starless
      · rw [Bool.or_eq_true, beq_iff_eq, beq_iff_eq] at sign
        rcases sign with same | same
        · rw [same]
          exact .literal ⟨by decide, by decide⟩ (maskEqCi_refl '!') glob
        · rw [same]
          exact .any '!' glob
    · obtain ⟨nick, user, host, isNick, -, named, hosted, starless, glob⟩ := ih later
      rw [Bool.or_eq_true, Bool.and_eq_true, beq_iff_eq, decide_eq_true_eq] at fits
      rcases fits with here | ⟨any, room⟩
      · have plain : p ≠ '*' ∧ p ≠ '?' := by
          constructor <;> rintro rfl <;> rw [isNickAt_sign count (by decide)] at here <;> cases here
        refine ⟨p :: nick, user, host, ?_, Nat.lt_add_left _ (Nat.succ_pos _), named, hosted, ?_,
          .literal plain (maskEqCi_refl p) glob⟩
        · rw [isNickFrom, here, isNick, Bool.and_self]
        · rw [List.cons_append, List.mem_cons, not_or]
          exact ⟨plain.1.symm, starless⟩
      · refine ⟨'x' :: nick, user, host, ?_, Nat.lt_add_left _ (Nat.succ_pos _), named, hosted, ?_, ?_⟩
        · have fits : isNickAt count 'x' = true := by
            rw [isNickAt, decide_eq_true room, Bool.true_and]
            split <;> decide
          rw [isNickFrom, fits, isNick, Bool.and_self]
        · rw [List.cons_append, List.mem_cons, not_or]
          exact ⟨by decide, starless⟩
        · rw [any]
          exact .any 'x' glob

end Nick

/-! ## Live masks -/

/-- A mask matches some user exactly if it can end a nick and go on with an address. -/
theorem alive_iff (mask : String) :
    (∃ text, UserMask text ∧ maskMatches mask text = true) ↔ endsNick isAddress 0 mask.toList = true := by
  constructor
  · rintro ⟨text, ⟨nick, user, host, valid, named, hosted, rfl⟩, holds⟩
    obtain ⟨nonempty, isNick⟩ := (isValidNick_iff nick).mp valid
    -- the loop of the source matches no more than the grammar, and as much on texts without a `*`
    have glob := ((maskMatches_strict _ _).mp holds).glob
    have shape : (hostmask nick user host).toList =
        nick.toList ++ '!' :: (user.toList ++ '@' :: host.toList) := by
      simp [hostmask]
    rw [shape] at glob
    refine endsNick_of_glob (fun rest read => ?_) glob isNick ?_
    · exact isAddress_of_glob read (by simpa using named) (by simpa using hosted)
    · have some := List.length_pos_iff.mpr nonempty
      omega
  · intro ends
    obtain ⟨nick, user, host, isNick, some, named, hosted, starless, glob⟩ :=
      glob_of_endsNick (fun _ => glob_of_isAddress) ends
    have shape : (hostmask (String.ofList nick) (String.ofList user) (String.ofList host)).toList =
        nick ++ '!' :: (user ++ '@' :: host) := by
      simp [hostmask]
    refine ⟨_, ⟨String.ofList nick, String.ofList user, String.ofList host, ?_, ?_, ?_, rfl⟩, ?_⟩
    · rw [isValidNick_iff, String.toList_ofList]
      exact ⟨List.length_pos_iff.mp (by omega), isNick⟩
    · simpa using named
    · simpa using hosted
    · rw [maskMatches_starless (by rw [shape]; exact starless), shape]
      exact glob

/-- An appended host takes nothing from the mask. -/
theorem endsNick_host (count : Nat) (mask : List Char) :
    endsNick isAddress count (mask ++ ['@', '*']) = endsNick (fun _ => true) count mask := by
  induction mask generalizing count with
  | nil =>
    have noNick := isNickAt_sign count (c := '@') (by decide)
    simp [endsNick, noNick]
  | cons p rest ih =>
    have address : isAddress (rest ++ ['@', '*']) = true := by simp [isAddress]
    rw [List.cons_append, endsNick, endsNick, ih, address]

/-- Nor does an appended address. -/
theorem endsNick_address (count : Nat) (mask : List Char) :
    endsNick isAddress count (mask ++ ['!', '*', '@', '*']) = endsNick (fun _ => true) count (mask ++ ['!']) := by
  induction mask generalizing count with
  | nil =>
    have noNick := isNickAt_sign count (c := '!') (by decide)
    simp [endsNick, noNick, isAddress]
  | cons p rest ih =>
    have address : isAddress (rest ++ ['!', '*', '@', '*']) = true := by simp [isAddress]
    rw [List.cons_append, List.cons_append, endsNick, endsNick, ih, address]

/-! ## Normalisation -/

theorem startsWith_tilde (mask : String) : startsWith mask "~" = true ↔ mask.toList.head? = some '~' := by
  rw [startsWith_iff, List.head?_eq_some_iff]
  constructor
  · rintro ⟨rest, rfl⟩
    exact ⟨rest.toList, by rw [String.toList_append]; rfl⟩
  · intro ⟨rest, chars⟩
    refine ⟨String.ofList rest, String.toList_inj.mp ?_⟩
    rw [chars, String.toList_append]
    simp

/-- A mask with both separators is left alone. -/
theorem normalizeBanMask_complete {mask : String} (bang : '!' ∈ mask.toList) (sign : '@' ∈ mask.toList) :
    normalizeBanMask mask = mask := by
  rw [normalizeBanMask, if_pos (List.contains_iff_mem.mpr bang), if_pos (List.contains_iff_mem.mpr sign), ite_self]

/-- By the separators: what is left alone, and what is added. -/
theorem normalizeBanMask_cases (raw : String) :
    (startsWith raw "~" = true ∧ normalizeBanMask raw = raw) ∨
      (startsWith raw "~" = false ∧ '!' ∈ raw.toList ∧ '@' ∈ raw.toList ∧ normalizeBanMask raw = raw) ∨
      (startsWith raw "~" = false ∧ '!' ∈ raw.toList ∧ '@' ∉ raw.toList ∧ normalizeBanMask raw = raw ++ "@*") ∨
      (startsWith raw "~" = false ∧ '!' ∉ raw.toList ∧ '@' ∈ raw.toList ∧ normalizeBanMask raw = "*!" ++ raw) ∨
      (startsWith raw "~" = false ∧ '!' ∉ raw.toList ∧ '@' ∉ raw.toList ∧
        normalizeBanMask raw = raw ++ "!*@*") := by
  rw [normalizeBanMask]
  cases tilde : startsWith raw "~" <;> by_cases bang : '!' ∈ raw.toList <;> by_cases sign : '@' ∈ raw.toList <;>
    simp [bang, sign]

theorem normalizeBanMask_idempotent (raw : String) :
    normalizeBanMask (normalizeBanMask raw) = normalizeBanMask raw := by
  obtain ⟨-, same⟩ | ⟨-, -, -, same⟩ | ⟨-, bang, -, same⟩ | ⟨-, -, sign, same⟩ | ⟨-, -, -, same⟩ :=
    normalizeBanMask_cases raw
  · rw [same, same]
  · rw [same, same]
  · rw [same]
    exact normalizeBanMask_complete (by simp [bang]) (by simp)
  · rw [same]
    exact normalizeBanMask_complete (by simp) (by simp [sign])
  · rw [same]
    exact normalizeBanMask_complete (by simp) (by simp)

theorem wellShaped_iff (mask : String) :
    wellShaped mask = true ↔ ∃ before after, mask.toList = before ++ '!' :: after ∧ '@' ∈ after := by
  rw [wellShaped, List.contains_iff_mem]
  generalize mask.toList = chars
  induction chars with
  | nil => simp
  | cons c rest ih =>
    by_cases bang : c = '!'
    · rw [bang, List.dropWhile_cons_of_neg (by simp), List.mem_cons]
      constructor
      · intro member
        exact ⟨[], rest, rfl, member.resolve_left (by decide)⟩
      · rintro ⟨before, after, shape, sign⟩
        cases before with
        | nil =>
          cases shape
          exact .inr sign
        -- a `@` after a later `!` is after the first one too
        | cons d before =>
          refine .inr ?_
          rw [(List.cons.inj shape).2]
          exact List.mem_append_right _ (List.mem_cons_of_mem _ sign)
    · rw [List.dropWhile_cons_of_pos (by simpa using bang), ih]
      constructor
      · rintro ⟨before, after, shape, sign⟩
        exact ⟨c :: before, after, by rw [shape]; rfl, sign⟩
      · rintro ⟨before, after, shape, sign⟩
        cases before with
        | nil => exact absurd (List.cons.inj shape).1 bang
        | cons d before => exact ⟨before, after, (List.cons.inj shape).2, sign⟩

theorem wellShaped_unchanged {raw : String} (shaped : wellShaped raw = true) : normalizeBanMask raw = raw := by
  obtain ⟨before, after, shape, sign⟩ := (wellShaped_iff raw).mp shaped
  refine normalizeBanMask_complete ?_ ?_ <;> rw [shape] <;> simp [sign]

/-- Whether the result has the shape and matches some user, read off the mask. -/
theorem shaped_alive_iff (raw : String) :
    (wellShaped (normalizeBanMask raw) = true ∧ endsNick isAddress 0 (normalizeBanMask raw).toList = true) ↔
      normalisable raw = true := by
  obtain ⟨tilde, same⟩ | ⟨tilde, bang, sign, same⟩ | ⟨tilde, bang, sign, same⟩ | ⟨tilde, bang, sign, same⟩ |
    ⟨tilde, bang, sign, same⟩ := normalizeBanMask_cases raw
  · -- no nick begins with the sign of an extended mask
    obtain ⟨rest, chars⟩ := List.head?_eq_some_iff.mp ((startsWith_tilde raw).mp tilde)
    have noNick := isNickAt_sign 0 (c := '~') (by decide)
    simp [same, normalisable, tilde, chars, endsNick, noNick]
  · simp [same, normalisable, tilde, bang, sign]
  · obtain ⟨before, after, shape⟩ := List.append_of_mem bang
    have shaped : wellShaped (raw ++ "@*") = true := by
      rw [wellShaped_iff]
      exact ⟨before, after ++ ['@', '*'], by simp [shape], by simp⟩
    have chars : (raw ++ "@*").toList = raw.toList ++ ['@', '*'] := String.toList_append
    rw [same, shaped, chars, endsNick_host]
    simp [normalisable, tilde, bang, sign]
  · -- the `*` put before the mask stands for any nick
    have shaped : wellShaped ("*!" ++ raw) = true := by
      rw [wellShaped_iff]
      exact ⟨['*'], raw.toList, by simp, sign⟩
    have chars : ("*!" ++ raw).toList = '*' :: '!' :: raw.toList := by simp
    rw [same, shaped, chars]
    simp [normalisable, tilde, bang, sign, endsNick]
  · have shaped : wellShaped (raw ++ "!*@*") = true := by
      rw [wellShaped_iff]
      exact ⟨raw.toList, ['*', '@', '*'], by simp, by simp⟩
    have chars : (raw ++ "!*@*").toList = raw.toList ++ ['!', '*', '@', '*'] := String.toList_append
    rw [same, shaped, chars, endsNick_address]
    simp [normalisable, tilde, bang, sign]

/-- Normalisation is what it should be exactly on the masks that are normalisable; on others the result has the
separators in the wrong order or matches nobody. -/
theorem normalised_iff (raw : String) : Normalised raw ↔ normalisable raw = true := by
  rw [← shaped_alive_iff, ← alive_iff]
  constructor
  · intro normalised
    exact ⟨normalised.shaped, normalised.alive⟩
  · intro ⟨shaped, alive⟩
    exact ⟨normalizeBanMask_idempotent raw, shaped, wellShaped_unchanged, alive⟩

example : ["alice", "*@spam.example", "a?ice!*@*", "*"].all normalisable = true := by decide

example : ["spam.example", "evil@host!nick", "~bob@host", "!*@*"].any normalisable = false := by decide

/-- A bare host is taken for a nick, and no nick has a dot. -/
theorem bareHost_dead : ¬ ∀ raw, isExtended raw = false → Normalised raw := by
  intro holds
  have alive := (holds "spam.example" (by decide)).alive
  rw [alive_iff] at alive
  exact absurd alive (by decide)

end Ferrixd
