import Storyboard.Json.Reader
import Storyboard.Proofs.Binary64

set_option autoImplicit false

namespace Storyboard.Json

section Numbers
open Binary64

theorem takeDigits_lt {n : Nat} (hn : n < UInt64.size) (ds : List Char) :
    (takeDigits n ds).1 < UInt64.size := by
  induction ds generalizing n with
  | nil => exact hn
  | cons d ds ih =>
    simp only [takeDigits]
    split
    · rename_i hnext
      exact ih hnext
    · exact hn

theorem isFinite_of_nearest? {num den : Nat} {x : Float} (h : nearest? num den = some x) :
    x.isFinite = true := by
  simp only [nearest?] at h
  split at h
  · cases h
    decide
  · split at h
    · rename_i hbits
      cases h
      exact isFinite_ofBits hbits
    · cases h

theorem isFinite_of_ofDecimal? {m : Nat} {e : Int} {x : Float} (h : ofDecimal? m e = some x) :
    x.isFinite = true := by
  unfold ofDecimal? at h
  split at h
  · cases h
    decide
  · split at h
    · cases h
    · split at h
      · cases h
        decide
      · split at h <;> exact isFinite_of_nearest? h

theorem isFinite_ofDecimal?_getD (m : Nat) (e : Int) :
    ((ofDecimal? m e).getD 0.0).isFinite = true := by
  cases h : ofDecimal? m e with
  | none => decide
  | some x => exact isFinite_of_ofDecimal? h

theorem above_tenTo {k : Nat} (hlow : 1 ≤ k) (hhigh : k ≤ 308) :
    above 1 (tenTo k).toModel.unpack = true := by
  have hall : ∀ i < 308, above 1 (tenTo (i + 1)).toModel.unpack = true := by decide +kernel
  have hk := hall (k - 1) (by omega)
  rwa [Nat.sub_add_cancel hlow] at hk

theorem isFinite_of_scale? {n : Nat} {e : Int} {x : Float} (h : scale? n e = some x) :
    x.isFinite = true := by
  have hstart := isFinite_ofDecimal?_getD n 0
  simp only [scale?] at h
  split at h
  · cases h
    decide
  split at h
  · cases h
  split at h
  · split at h
    · rename_i hfinite
      cases h
      exact hfinite
    · cases h
  split at h
  · cases h
    exact isFinite_div hstart (above_tenTo (by omega) (by omega))
  split at h
  · cases h
    have hfirst := isFinite_div hstart (above_tenTo (k := 308) (by decide) (by decide))
    exact isFinite_div hfirst (above_tenTo (by omega) (by omega))
  · cases h
    decide

end Numbers

/-- Every number in the value is a finite double or an integer whose digits 64 bits hold. -/
inductive Sound : Json → Prop where
  | null : Sound .null
  | bool (b : Bool) : Sound (.bool b)
  | int {n : Int} (h : n.natAbs < UInt64.size) : Sound (.int n)
  | float {x : Float} (h : x.isFinite = true) : Sound (.float x)
  | str (s : String) : Sound (.str s)
  | arr {xs : List Json} (h : ∀ x ∈ xs, Sound x) : Sound (.arr xs)
  | obj {es : List (Option String × Json)} (h : ∀ e ∈ es, Sound e.2) : Sound (.obj es)
  | garbled : Sound .garbled
  | broken : Sound .broken

theorem sound_ofDigits (negative : Bool) (whole fraction : List Char) (exponent : Option Int) :
    Sound (ofDigits negative whole fraction exponent) := by
  have hlt := takeDigits_lt (by decide : 0 < UInt64.size) whole
  unfold ofDigits
  generalize takeDigits 0 whole = taken at hlt
  obtain ⟨n, skipped⟩ := taken
  dsimp only at hlt ⊢
  split
  · exact .int (by omega)
  · split
    · exact .int (by omega)
    · split
      · rename_i x hx
        have hfinite := isFinite_of_scale? hx
        cases negative
        · exact .float hfinite
        · exact .float (Binary64.isFinite_neg hfinite)
      · exact .garbled

theorem sound_number (s : List Char) : Sound (number s).1 := by
  unfold number
  split
  dsimp only
  split
  · rename_i hread
    simp only [bind, Option.bind_eq_some_iff, Prod.exists, pure, Option.some.injEq,
      Prod.mk.injEq] at hread
    obtain ⟨whole, _, -, _, -, fraction, _, -, exponent, _, -, rfl, -⟩ := hread
    exact sound_ofDigits _ whole fraction exponent
  · exact .broken

theorem sound_string (s : List Char) : Sound (string s).1 := by
  unfold string
  split
  · exact .str _
  · exact .garbled
  · exact .broken

theorem sound_value_items_entries (n : Nat) :
    (∀ s, Sound (value n s).1) ∧ (∀ s, ∀ x ∈ (items n s).1, Sound x) ∧
      ∀ s, ∀ e ∈ (entries n s).1, Sound e.2 := by
  induction n with
  | zero =>
    refine ⟨fun s => .broken, fun s x hx => ?_, fun s e he => ?_⟩
    · obtain rfl := List.mem_singleton.mp hx
      exact .broken
    · obtain rfl := List.mem_singleton.mp he
      exact .broken
  | succ n ih =>
    obtain ⟨hvalue, hitems, hentries⟩ := ih
    refine ⟨fun s => ?_, fun s => ?_, fun s => ?_⟩
    · simp only [value]
      split
      · exact .null
      · exact .bool true
      · exact .bool false
      · exact sound_string _
      · split
        · exact .arr (by simp)
        · exact .arr (hitems _)
      · split
        · exact .obj (by simp)
        · exact .obj (hentries _)
      · exact sound_number _
    · have hfirst := hvalue s
      simp only [items]
      split
      · rename_i x hx
        rw [hx] at hfirst
        simpa using hfirst
      · rename_i x r hx
        rw [hx] at hfirst
        split
        · exact List.forall_mem_cons.mpr ⟨hfirst, hitems _⟩
        · simpa using hfirst
        · simpa using ⟨hfirst, .broken⟩
    · simp only [entries]
      split
      · split
        · simpa using .broken
        · split
          · rename_i r _
            have hfirst := hvalue r
            split
            · rename_i x hx
              rw [hx] at hfirst
              simpa using hfirst
            · rename_i x r hx
              rw [hx] at hfirst
              split
              · exact List.forall_mem_cons.mpr ⟨hfirst, hentries _⟩
              · simpa using hfirst
              · simpa using ⟨hfirst, .broken⟩
          · simpa using .broken
      · simpa using .broken

theorem sound_scan (s : List Char) : Sound (scan s).1 := (sound_value_items_entries _).1 s

end Storyboard.Json
