import Mathlib.Data.List.Basic
import Mathlib.Data.List.Nodup
import Storyboard.Proofs.Cue

set_option autoImplicit false

namespace Storyboard
variable {α : Type}

theorem Deed.underscore_notMem_label (d : Deed α) : '_' ∉ d.label.toList := by
  cases d <;> simp [label]

/-- Neither the word nor the number in an id has an underscore, so the number is found again. -/
theorem Action.HasNumber.number_eq {i j : Nat} {a b : Action α} (ha : a.HasNumber i)
    (hb : b.HasNumber j) (h : a.id = b.id) : i = j := by
  rw [Action.hasNumber_iff.mp ha, Action.hasNumber_iff.mp hb] at h
  have hchars : a.deed.label.toList ++ '_' :: Nat.toDigits 10 i =
      b.deed.label.toList ++ '_' :: Nat.toDigits 10 j := by
    simpa [toString] using congrArg String.toList h
  obtain ⟨-, -, hdigits⟩ := (List.append_cons_inj_of_notMem a.deed.underscore_notMem_label
    Nat.underscore_not_in_toDigits).mp hchars
  exact toDigits_injective hdigits

theorem NumberedFrom.nodup_map_id {k : Nat} {actions : List (Action α)}
    (h : NumberedFrom k actions) : (actions.map Action.id).Nodup := by
  rw [List.Nodup, List.pairwise_map, List.pairwise_iff_getElem]
  intro i j hi hj hlt hid
  have hij : k + i + 1 = k + j + 1 := (h i hi).number_eq (h j hj) hid
  omega

namespace Compiler
variable [Scalar α] {c : Compiler α} {sizes : Sizes α} {s : Spec α} {p : Project α}

/-- The actions of a project are numbered from one on through all its scenes, with no number left
out and none given twice. A compiler keeps nothing from one compilation to the next, so this holds
of each. -/
theorem compileWith_numbers (h : c.compileWith sizes s = .ok p) :
    (∀ (k : Nat) (hk : k < p.actions.length), p.actions[k].HasNumber (k + 1)) ∧
      (p.actions.map Action.id).Nodup := by
  obtain ⟨⟨scenes, last⟩, hrun, hp⟩ := bind_eq_ok_iff.mp h
  cases hp
  have hnumbered : NumberedFrom 0 (scenes.flatMap PlayedScene.actions) :=
    numberedFrom_of_playScenes hrun
  refine ⟨fun k hk => ?_, hnumbered.nodup_map_id⟩
  have hnumber := hnumbered k hk
  rwa [Nat.zero_add] at hnumber

theorem sample_numbers :
    ∃ p, (plain (α := Rat) ⟨1920, 1080⟩).compile Spec.sample = .ok p ∧ p.actions.length = 16 ∧
      (∀ (k : Nat) (hk : k < p.actions.length), p.actions[k].HasNumber (k + 1)) ∧
      (p.actions.map Action.id).Nodup := by
  have h : ((plain (α := Rat) ⟨1920, 1080⟩).compile Spec.sample).toOption.isSome := by
    decide +kernel
  obtain ⟨p, hp⟩ := isSome_toOption_iff.mp h
  have hlength : ((plain (α := Rat) ⟨1920, 1080⟩).compile Spec.sample).toOption.map
      (fun p => p.actions.length) = some 16 := by decide +kernel
  exact ⟨p, hp, by simpa [hp, Except.toOption] using hlength, compileWith_numbers hp⟩

end Compiler
end Storyboard
