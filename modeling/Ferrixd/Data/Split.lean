import Mathlib.Data.List.Basic
import Mathlib.Data.String.Basic

/-! # Splitting a text at a character

The pieces are those of the list of its characters, so a text that is joined from clean pieces has these. -/

namespace Ferrixd

open String (utf8Len utf8Len_append)

/-- The position `⟨utf8Len l + utf8Len m⟩` stands before `r`, and the piece that has been read so far is `m`. -/
theorem splitOnAux_of_valid (c : Char) (l m r : List Char) (acc : List String) :
    String.splitOnAux (String.ofList (l ++ m ++ r)) (String.ofList [c]) ⟨utf8Len l⟩ ⟨utf8Len l + utf8Len m⟩ 0 acc =
      acc.reverse ++ (List.splitOnPPrepend (· == c) r m.reverse).map String.ofList := by
  have position : (⟨utf8Len l + utf8Len m⟩ : String.Pos.Raw) = ⟨utf8Len (l ++ m)⟩ := by rw [utf8Len_append]
  induction r generalizing l m acc with
  | nil =>
    have done : (⟨utf8Len l + utf8Len m⟩ : String.Pos.Raw).atEnd (String.ofList (l ++ m ++ [])) = true := by
      rw [position]
      exact (String.atEnd_of_valid (l ++ m) []).mpr rfl
    rw [String.splitOnAux, if_pos done, String.extract_of_valid]
    simp
  | cons d r ih =>
    have going : ¬ (⟨utf8Len l + utf8Len m⟩ : String.Pos.Raw).atEnd (String.ofList (l ++ m ++ d :: r)) = true := by
      rw [position]
      exact fun done => List.cons_ne_nil d r ((String.atEnd_of_valid (l ++ m) (d :: r)).mp done)
    have here : (⟨utf8Len l + utf8Len m⟩ : String.Pos.Raw).get (String.ofList (l ++ m ++ d :: r)) = d := by
      rw [position]
      exact String.get_of_valid (l ++ m) (d :: r)
    have next : (⟨utf8Len l + utf8Len m⟩ : String.Pos.Raw).next (String.ofList (l ++ m ++ d :: r)) =
        ⟨utf8Len l + utf8Len m + d.utf8Size⟩ := by
      rw [position, String.next_of_valid, utf8Len_append]
    have separator : (0 : String.Pos.Raw).get (String.ofList [c]) = c := String.get_of_valid [] [c]
    rw [String.splitOnAux, if_neg going, here, separator]
    by_cases same : d = c
    · subst same
      have nextSeparator : (0 : String.Pos.Raw).next (String.ofList [d]) = ⟨0 + d.utf8Size⟩ :=
        String.next_of_valid [] d []
      have whole : (⟨0 + d.utf8Size⟩ : String.Pos.Raw).atEnd (String.ofList [d]) = true := by
        simpa using (String.atEnd_of_valid [d] []).mpr rfl
      -- the separator has one character, so it is matched whole and the piece ends before it
      have back : (⟨utf8Len l + utf8Len m + d.utf8Size⟩ : String.Pos.Raw).unoffsetBy ⟨0 + d.utf8Size⟩ =
          ⟨utf8Len l + utf8Len m⟩ := by
        simp [String.Pos.Raw.unoffsetBy]
      rw [if_pos (beq_self_eq_true d), next, nextSeparator]
      dsimp only
      rw [if_pos whole, back, String.extract_of_valid]
      have rest := ih (l ++ m ++ [d]) [] (String.ofList m :: acc) (by simp)
      simpa [List.splitOnPPrepend_cons_eq_if, Nat.add_assoc] using rest
    · have different : (d == c) = false := beq_eq_false_iff_ne.mpr same
      have stay : (⟨utf8Len l + utf8Len m⟩ : String.Pos.Raw).unoffsetBy 0 = ⟨utf8Len l + utf8Len m⟩ := rfl
      rw [different, if_neg Bool.false_ne_true, stay, next]
      have rest := ih l (m ++ [d]) acc (by simp)
      simpa [List.splitOnPPrepend_cons_eq_if, different, Nat.add_assoc] using rest

/-- A text is split as the list of its characters is. -/
theorem splitOn_char (text : String) (c : Char) :
    text.splitOn (String.ofList [c]) = (text.toList.splitOn c).map String.ofList := by
  have split := splitOnAux_of_valid c [] [] text.toList []
  have nonempty : (String.ofList [c] == "") = false := by
    rw [beq_eq_false_iff_ne]
    exact fun empty => List.cons_ne_nil c [] (String.ofList_eq_empty_iff.mp empty)
  rw [String.splitOn, nonempty, if_neg Bool.false_ne_true, List.splitOn_eq_splitOnP]
  simpa using split

variable {c : Char}

theorem splitOn_clean {text : String} (clean : c ∉ text.toList) : text.splitOn (String.ofList [c]) = [text] := by
  rw [splitOn_char, List.splitOn_eq_singleton clean]
  simp

theorem splitOn_cons {left : String} (clean : c ∉ left.toList) (right : String) :
    (left ++ String.ofList [c] ++ right).splitOn (String.ofList [c]) = left :: right.splitOn (String.ofList [c]) := by
  have chars : (left ++ String.ofList [c] ++ right).toList = left.toList ++ c :: right.toList := by simp
  rw [splitOn_char, chars, List.splitOn_append_cons_self_of_not_mem clean, List.map_cons, String.ofList_toList,
    ← splitOn_char]

end Ferrixd
