import Mathlib.Data.String.Basic

set_option autoImplicit false

/-!
The order of texts by their bytes. Texts are compared character by character, and what is stored of
them are the bytes of UTF-8. Both orders are the same: a character with a larger number has larger
bytes, and none of the bytes of one character are the first bytes of another.
-/

namespace Storyboard.Text

def bytes (s : String) : List UInt8 := s.toUTF8.data.toList

theorem bytes_eq (s : String) : bytes s = s.toList.flatMap String.utf8EncodeChar := by
  have h := congrArg (fun t : String => t.toByteArray.data.toList)
    (String.ofList_toList (s := s)).symm
  exact h.trans (by simp [String.ofList, List.utf8Encode])

theorem append_utf8EncodeChar_lt {c d : Char} (h : c < d) (xs ys : List UInt8) :
    String.utf8EncodeChar c ++ xs < String.utf8EncodeChar d ++ ys := by
  have hlt : c.val.toNat < d.val.toNat := h
  have hd : d.val.toNat < 1114112 := by
    rcases d.valid with h | h <;> omega
  unfold String.utf8EncodeChar
  dsimp only
  generalize c.val.toNat = m at *
  generalize d.val.toNat = n at *
  -- the first byte tells how many there are, and more of them are for larger numbers
  split_ifs
  all_goals
    simp (disch := omega) only [List.cons_append, List.nil_append, List.cons_lt_cons_iff,
      UInt8.lt_iff_toNat_lt, ← UInt8.toNat_inj, UInt8.toNat_ofNat', Nat.mod_eq_of_lt]
    omega

theorem flatMap_utf8EncodeChar_lt {cs ds : List Char} (h : cs < ds) :
    cs.flatMap String.utf8EncodeChar < ds.flatMap String.utf8EncodeChar := by
  induction ds generalizing cs with
  | nil => cases h
  | cons d ds ih =>
    rw [List.flatMap_cons]
    cases h with
    | nil =>
      obtain ⟨b, bs, hbytes⟩ := List.exists_cons_of_ne_nil (String.utf8EncodeChar_ne_nil (c := d))
      rw [hbytes]
      exact List.nil_lt_cons b _
    | rel hlt =>
      rw [List.flatMap_cons]
      exact append_utf8EncodeChar_lt hlt _ _
    | cons hrest =>
      rw [List.flatMap_cons]
      exact List.append_left_lt (ih hrest)

theorem bytes_lt_of_lt {s t : String} (h : s < t) : bytes s < bytes t := by
  rw [bytes_eq, bytes_eq]
  exact flatMap_utf8EncodeChar_lt h

end Storyboard.Text
