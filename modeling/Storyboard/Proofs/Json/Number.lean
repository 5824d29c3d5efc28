import Mathlib.Data.List.TakeWhile
import Mathlib.Data.List.TakeDrop
import Mathlib.Data.Option.Basic
import Storyboard.Json.Reader
import Storyboard.Json.Writer

set_option autoImplicit false

/-!
Numbers in a text. A number ends where nothing that could go on with it follows, so what it is read
as does not depend on the rest. Integers of 64 bits are read back as they were written.
-/

namespace Storyboard.Json

/-- What follows a number does not go on with it. -/
def Ends (r : List Char) : Prop :=
  ∀ c ∈ r.head?, c.isDigit = false ∧ c ≠ '.' ∧ c ≠ 'e' ∧ c ≠ 'E'

theorem ends_nil : Ends [] := by simp [Ends]

theorem ends_cons {c : Char} {r : List Char}
    (h : c.isDigit = false ∧ c ≠ '.' ∧ c ≠ 'e' ∧ c ≠ 'E') : Ends (c :: r) := by
  simpa [Ends] using h

theorem digits?_append_of_digits {ds r : List Char} (hne : ds ≠ [])
    (hd : ∀ c ∈ ds, c.isDigit = true) (hr : ∀ c ∈ r.head?, c.isDigit = false) :
    digits? (ds ++ r) = some (ds, r) := by
  have htake : (ds ++ r).takeWhile Char.isDigit = ds := by
    rw [List.takeWhile_append_of_pos hd]
    cases r with
    | nil => simp
    | cons c r => simp [hr c (by simp)]
  have hdrop : (ds ++ r).dropWhile Char.isDigit = r := by
    rw [List.dropWhile_append_of_pos hd]
    cases r with
    | nil => simp
    | cons c r => simp [hr c (by simp)]
  unfold digits?
  rw [List.span_eq_takeWhile_dropWhile, htake, hdrop]
  cases ds with
  | nil => exact absurd rfl hne
  | cons d ds => rfl

theorem digits?_eq_some {s ds r : List Char} (h : digits? s = some (ds, r)) :
    s = ds ++ r ∧ ds ≠ [] ∧ (∀ c ∈ ds, c.isDigit = true) ∧ ∀ c ∈ r.head?, c.isDigit = false := by
  unfold digits? at h
  rw [List.span_eq_takeWhile_dropWhile] at h
  split at h
  · cases h
  · rename_i ds' r' hne hspan
    cases h
    obtain ⟨rfl, rfl⟩ := Prod.mk.inj hspan
    refine ⟨List.takeWhile_append_dropWhile.symm, hne, fun c => List.mem_takeWhile_imp, ?_⟩
    intro c hc
    have hhead := List.head?_dropWhile_not Char.isDigit s
    rw [Option.mem_def.mp hc] at hhead
    simpa using hhead

variable {r : List Char}

theorem digits?_append {s ds t : List Char} (h : digits? s = some (ds, t)) (hr : Ends r) :
    digits? (s ++ r) = some (ds, t ++ r) := by
  obtain ⟨rfl, hne, hd, ht⟩ := digits?_eq_some h
  rw [List.append_assoc]
  refine digits?_append_of_digits hne hd ?_
  intro c hc
  cases t with
  | nil => exact (hr c hc).1
  | cons d t => exact ht c hc

theorem fraction?_append {s f t : List Char} (h : fraction? s = some (f, t)) (hr : Ends r) :
    fraction? (s ++ r) = some (f, t ++ r) := by
  unfold fraction? at h
  split at h
  · exact digits?_append h hr
  · rename_i hdot
    cases h
    cases s with
    | nil =>
      cases r with
      | nil => rfl
      | cons c r =>
        have hc := (hr c (by simp)).2.1
        simp [fraction?, hc]
    | cons c s =>
      have hc : c ≠ '.' := fun hc => hdot s (by rw [hc])
      simp [fraction?, hc]

theorem exponent?_append {s t : List Char} {e : Option Int} (h : exponent? s = some (e, t))
    (hr : Ends r) : exponent? (s ++ r) = some (e, t ++ r) := by
  cases s with
  | nil =>
    cases h
    cases r with
    | nil => rfl
    | cons c r =>
      have hc := (hr c (by simp)).2.2
      simp [exponent?, hc.1, hc.2]
  | cons c s =>
    -- whatever the sign, the digits after it are read with the rest kept
    have hdigits (u : List Char) (f : List Char → Option Int)
        (hu : (digits? u).map (fun p => (f p.1, p.2)) = some (e, t)) :
        (digits? (u ++ r)).map (fun p => (f p.1, p.2)) = some (e, t ++ r) := by
      obtain ⟨⟨ds, v⟩, hv, hf⟩ := Option.map_eq_some_iff.mp hu
      cases hf
      rw [digits?_append hv hr]
      rfl
    simp only [exponent?] at h
    by_cases hc : c = 'e' ∨ c = 'E'
    · simp only [hc, if_true] at h
      simp only [List.cons_append, exponent?, hc, if_true]
      split at h
      · exact hdigits _ (fun ds => some (-digitsValue ds)) h
      · exact hdigits _ (fun ds => some (digitsValue ds)) h
      · rename_i hminus hplus
        obtain ⟨⟨ds, v⟩, hv, -⟩ := Option.map_eq_some_iff.mp h
        obtain ⟨rfl, hne, -, -⟩ := digits?_eq_some hv
        obtain ⟨d, ds, rfl⟩ := List.exists_cons_of_ne_nil hne
        split
        · rename_i heq
          exact absurd (by simp_all) (hminus (ds ++ v))
        · rename_i heq
          exact absurd (by simp_all) (hplus (ds ++ v))
        · exact hdigits _ (fun ds => some (digitsValue ds)) h
    · simp only [hc, if_false] at h
      cases h
      simp [exponent?, hc]

def unsigned? (negative : Bool) (s : List Char) : Option (Json × List Char) := do
  let (whole, r) ← digits? s
  guard (whole.length = 1 ∨ whole.head? ≠ some '0')
  let (fraction, r) ← fraction? r
  let (exponent, r) ← exponent? r
  return (ofDigits negative whole fraction exponent, r)

theorem unsigned?_eq_some_iff {negative : Bool} {s t : List Char} {x : Json} :
    unsigned? negative s = some (x, t) ↔ ∃ whole u fraction v exponent,
      digits? s = some (whole, u) ∧ (whole.length = 1 ∨ whole.head? ≠ some '0') ∧
      fraction? u = some (fraction, v) ∧ exponent? v = some (exponent, t) ∧
      x = ofDigits negative whole fraction exponent := by
  unfold unsigned?
  simp only [bind, Option.bind_eq_some_iff, guard, Prod.exists, pure, Option.some.injEq,
    Prod.mk.injEq]
  constructor
  · rintro ⟨whole, u, hw, _, hg, fraction, v, hf, exponent, t', he, rfl, rfl⟩
    refine ⟨whole, u, fraction, v, exponent, hw, ?_, hf, he, rfl⟩
    by_contra hn
    simp [hn] at hg
  · rintro ⟨whole, u, fraction, v, exponent, hw, hg, hf, he, rfl⟩
    exact ⟨whole, u, hw, (), by simp [hg], fraction, v, hf, exponent, t, he, rfl, rfl⟩

theorem unsigned?_append {negative : Bool} {s t : List Char} {x : Json}
    (h : unsigned? negative s = some (x, t)) (hr : Ends r) :
    unsigned? negative (s ++ r) = some (x, t ++ r) := by
  obtain ⟨whole, u, fraction, v, exponent, hw, hg, hf, he, hx⟩ := unsigned?_eq_some_iff.mp h
  exact unsigned?_eq_some_iff.mpr ⟨whole, u ++ r, fraction, v ++ r, exponent,
    digits?_append hw hr, hg, fraction?_append hf hr, exponent?_append he hr, hx⟩

def scanned : Option (Json × List Char) → Scan Json
  | some (x, r) => (x, some r)
  | none => (.broken, none)

theorem scanned_eq_iff {read : Option (Json × List Char)} {t : List Char} {x : Json} :
    scanned read = (x, some t) ↔ read = some (x, t) := by
  cases read <;> simp [scanned, Prod.ext_iff]

theorem number_minus_eq_iff {s t : List Char} {x : Json} :
    number ('-' :: s) = (x, some t) ↔ unsigned? true s = some (x, t) := by
  have hnumber : number ('-' :: s) = scanned (unsigned? true s) := rfl
  rw [hnumber, scanned_eq_iff]

theorem number_plain_eq_iff {s t : List Char} {x : Json} (hs : s.head? ≠ some '-') :
    number s = (x, some t) ↔ unsigned? false s = some (x, t) := by
  have hnumber : number s = scanned (unsigned? false s) := by
    cases s with
    | nil => rfl
    | cons c s =>
      have hc : c ≠ '-' := by simpa using hs
      unfold number
      split
      rename_i hsign
      split at hsign
      · simp_all
      · cases hsign
        rfl
  rw [hnumber, scanned_eq_iff]

theorem exists_head_of_number {s t : List Char} {x : Json} (h : number s = (x, some t)) :
    ∃ c u, s = c :: u ∧ (c = '-' ∨ c.isDigit = true) := by
  by_cases hs : s.head? = some '-'
  · obtain ⟨u, rfl⟩ := List.head?_eq_some_iff.mp hs
    exact ⟨'-', u, rfl, .inl rfl⟩
  · obtain ⟨whole, u, _, _, _, hw, -⟩ :=
      unsigned?_eq_some_iff.mp ((number_plain_eq_iff hs).mp h)
    obtain ⟨rfl, hne, hd, -⟩ := digits?_eq_some hw
    obtain ⟨d, ds, rfl⟩ := List.exists_cons_of_ne_nil hne
    exact ⟨d, ds ++ u, rfl, .inr (hd d (by simp))⟩

theorem number_append {s t : List Char} {x : Json} (h : number s = (x, some t)) (hr : Ends r) :
    number (s ++ r) = (x, some (t ++ r)) := by
  obtain ⟨c, u, rfl, hc⟩ := exists_head_of_number h
  by_cases hminus : c = '-'
  · subst hminus
    exact number_minus_eq_iff.mpr (unsigned?_append (number_minus_eq_iff.mp h) hr)
  · have hhead {v : List Char} : (c :: v).head? ≠ some '-' := by simpa using hminus
    exact (number_plain_eq_iff hhead).mpr
      (unsigned?_append ((number_plain_eq_iff hhead).mp h) hr)

section Cut
variable {s b t : List Char}

theorem digits?_cut {ds : List Char} (h : digits? s = some (ds, b ++ t)) :
    ∃ a, s = a ++ (b ++ t) ∧ digits? (a ++ b) = some (ds, b) := by
  obtain ⟨rfl, hne, hd, hhead⟩ := digits?_eq_some h
  refine ⟨ds, rfl, digits?_append_of_digits hne hd fun c hc => hhead c ?_⟩
  rw [List.head?_append, Option.mem_def.mp hc]
  rfl

theorem fraction?_cut {f : List Char} (h : fraction? s = some (f, b ++ t)) :
    ∃ a, s = a ++ (b ++ t) ∧ fraction? (a ++ b) = some (f, b) := by
  unfold fraction? at h
  split at h
  · obtain ⟨a, rfl, ha⟩ := digits?_cut h
    exact ⟨'.' :: a, rfl, ha⟩
  · rename_i hdot
    cases h
    refine ⟨[], rfl, ?_⟩
    cases b with
    | nil => rfl
    | cons c b =>
      have hc : c ≠ '.' := fun hc => hdot (b ++ t) (by rw [hc]; rfl)
      simp [fraction?, hc]

theorem exponent?_cut {e : Option Int} (h : exponent? s = some (e, b ++ t)) :
    ∃ a, s = a ++ (b ++ t) ∧ exponent? (a ++ b) = some (e, b) := by
  cases s with
  | nil =>
    obtain ⟨rfl, hnil⟩ := Prod.mk.inj (Option.some.inj h)
    obtain ⟨rfl, rfl⟩ := List.append_eq_nil_iff.mp hnil.symm
    exact ⟨[], rfl, rfl⟩
  | cons c s =>
    have hdigits (u : List Char) (f : List Char → Option Int)
        (hu : (digits? u).map (fun p => (f p.1, p.2)) = some (e, b ++ t)) :
        ∃ a, u = a ++ (b ++ t) ∧ (digits? (a ++ b)).map (fun p => (f p.1, p.2)) = some (e, b) := by
      obtain ⟨⟨ds, v⟩, hv, hf⟩ := Option.map_eq_some_iff.mp hu
      cases hf
      obtain ⟨a, rfl, ha⟩ := digits?_cut hv
      exact ⟨a, rfl, by rw [ha]; rfl⟩
    simp only [exponent?] at h
    by_cases hc : c = 'e' ∨ c = 'E'
    · simp only [hc, if_true] at h
      split at h
      · obtain ⟨a, rfl, ha⟩ := hdigits _ (fun ds => some (-digitsValue ds)) h
        exact ⟨c :: '-' :: a, rfl, by simpa [exponent?, hc] using ha⟩
      · obtain ⟨a, rfl, ha⟩ := hdigits _ (fun ds => some (digitsValue ds)) h
        exact ⟨c :: '+' :: a, rfl, by simpa [exponent?, hc] using ha⟩
      · obtain ⟨a, rfl, ha⟩ := hdigits _ (fun ds => some (digitsValue ds)) h
        refine ⟨c :: a, rfl, ?_⟩
        simp only [List.cons_append, exponent?, hc, if_true]
        split
        · rename_i u hu
          have hnone : digits? ('-' :: u) = none := rfl
          rw [hu, hnone] at ha
          cases ha
        · rename_i u hu
          have hnone : digits? ('+' :: u) = none := rfl
          rw [hu, hnone] at ha
          cases ha
        · exact ha
    · simp only [hc, if_false] at h
      obtain ⟨rfl, hcs⟩ := Prod.mk.inj (Option.some.inj h)
      refine ⟨[], hcs, ?_⟩
      cases b with
      | nil => rfl
      | cons d b =>
        obtain ⟨rfl, -⟩ := List.cons.inj hcs
        simp [exponent?, hc]

theorem number_cut {x : Json} (h : number s = (x, some t)) :
    ∃ a, s = a ++ t ∧ number a = (x, some []) := by
  have hcut {negative : Bool} {s : List Char} (h : unsigned? negative s = some (x, t)) :
      ∃ a, s = a ++ t ∧ unsigned? negative a = some (x, []) := by
    obtain ⟨whole, u, fraction, v, exponent, hw, hg, hf, he, hx⟩ := unsigned?_eq_some_iff.mp h
    obtain ⟨c, rfl, hc⟩ := exponent?_cut (b := []) he
    obtain ⟨b, rfl, hb⟩ := fraction?_cut hf
    obtain ⟨a, rfl, ha⟩ := digits?_cut (b := b ++ c) (by simpa using hw)
    refine ⟨a ++ (b ++ c), by simp, ?_⟩
    exact unsigned?_eq_some_iff.mpr
      ⟨whole, _, fraction, _, exponent, ha, hg, hb, by simpa using hc, hx⟩
  obtain ⟨c, u, rfl, hc⟩ := exists_head_of_number h
  by_cases hminus : c = '-'
  · subst hminus
    obtain ⟨a, rfl, ha⟩ := hcut (number_minus_eq_iff.mp h)
    exact ⟨'-' :: a, rfl, number_minus_eq_iff.mpr ha⟩
  · have hhead : (c :: u).head? ≠ some '-' := by simpa using hminus
    obtain ⟨a, ha, hread⟩ := hcut ((number_plain_eq_iff hhead).mp h)
    refine ⟨a, ha, (number_plain_eq_iff ?_).mpr hread⟩
    intro hsign
    rw [ha, List.head?_append, hsign] at hhead
    exact hhead rfl

end Cut

section Integers
open Decimal

theorem head?_digitChars {n : Nat} (h : 0 < n) : (digitChars n).head? ≠ some '0' := by
  induction n using Nat.strongRecOn with
  | ind n ih =>
    unfold digitChars
    rw [Nat.toDigits_eq_if (by decide)]
    split
    · rename_i hlt
      have all : ∀ k : Fin 10, 0 < k.val → k.val.digitChar ≠ '0' := by decide
      simpa using all ⟨n, hlt⟩ h
    · have hne : Nat.toDigits 10 (n / 10) ≠ [] := Nat.toDigits_ne_nil
      rw [List.head?_append, Option.or_of_isSome (List.isSome_head?.mpr hne)]
      exact ih (n / 10) (by omega) (by omega)

theorem le_ofDigitChars (n : Nat) (ds : List Char) : n ≤ Nat.ofDigitChars 10 ds n := by
  induction ds generalizing n with
  | nil => exact Nat.le_refl n
  | cons d ds ih =>
    have h := ih (10 * n + (d.toNat - '0'.toNat))
    rw [Nat.ofDigitChars_cons]
    omega

theorem takeDigits_eq {n : Nat} {ds : List Char} (h : Nat.ofDigitChars 10 ds n < UInt64.size) :
    takeDigits n ds = (Nat.ofDigitChars 10 ds n, 0) := by
  induction ds generalizing n with
  | nil => rfl
  | cons d ds ih =>
    have hstep :
        Nat.ofDigitChars 10 (d :: ds) n = Nat.ofDigitChars 10 ds (n * 10 + digitValue d) := by
      rw [Nat.ofDigitChars_cons, Nat.mul_comm]
      rfl
    rw [hstep] at h ⊢
    have hle := le_ofDigitChars (n * 10 + digitValue d) ds
    simp only [takeDigits]
    rw [if_pos (by omega)]
    exact ih h

theorem takeDigits_digitChars {n : Nat} (h : n < UInt64.size) :
    takeDigits 0 (digitChars n) = (n, 0) := by
  have hn : Nat.ofDigitChars 10 (digitChars n) 0 = n := Nat.ofDigitChars_ten_toDigits
  rw [takeDigits_eq (by rwa [hn]), hn]

theorem unsigned?_digitChars (negative : Bool) (n : Nat) :
    unsigned? negative (digitChars n) = some (ofDigits negative (digitChars n) [] none, []) := by
  refine unsigned?_eq_some_iff.mpr ⟨digitChars n, [], [], [], none, ?_, ?_, rfl, rfl, rfl⟩
  · have hdigit : ∀ c ∈ digitChars n, c.isDigit = true :=
      fun c hc => Nat.isDigit_of_mem_toDigits (by decide) (by decide) hc
    have hne : digitChars n ≠ [] := Nat.toDigits_ne_nil
    simpa using digits?_append_of_digits (r := []) hne hdigit (by simp)
  · by_cases hn : 0 < n
    · exact .inr (head?_digitChars hn)
    · obtain rfl : n = 0 := by omega
      exact .inl rfl

theorem ofDigits_digitChars {n : Nat} (h : n < UInt64.size) :
    ofDigits false (digitChars n) [] none = .int n := by
  simp [ofDigits, takeDigits_digitChars h]

theorem ofDigits_minus_digitChars {n : Nat} (h : n < UInt64.size) (hpos : 0 < n)
    (hlow : Int64.minValue.toInt ≤ -n) : ofDigits true (digitChars n) [] none = .int (-n) := by
  simp only [ofDigits, takeDigits_digitChars h, List.isEmpty_nil, Option.isNone_none, BEq.rfl,
    Bool.and_true, Bool.not_true, Bool.and_false, Bool.false_eq_true, if_false, hpos, hlow,
    decide_true, if_true]

theorem number_intChars {n : Int} (hlow : Int64.minValue.toInt ≤ n) (hhigh : n < UInt64.size)
    (hr : Ends r) : number (intChars n ++ r) = (.int n, some r) := by
  rw [← List.nil_append r]
  refine number_append ?_ hr
  by_cases hn : n < 0
  · have habs : n.natAbs < UInt64.size := by
      have hmin : Int64.minValue.toInt = -9223372036854775808 := by decide
      rw [hmin] at hlow
      simp only [UInt64.size]
      omega
    have hneg : -(n.natAbs : Int) = n := by omega
    rw [intChars, if_pos hn, number_minus_eq_iff, unsigned?_digitChars,
      ofDigits_minus_digitChars habs (by omega) (hneg.symm ▸ hlow), hneg]
  · have habs : n.natAbs < UInt64.size := by omega
    have hnat : (n.natAbs : Int) = n := by omega
    have hhead : (digitChars n.natAbs).head? ≠ some '-' := by
      intro h
      have hd := Nat.isDigit_of_mem_toDigits (b := 10) (by decide) (by decide)
        (List.mem_of_mem_head? h)
      exact absurd hd (by decide)
    rw [intChars, if_neg hn, number_plain_eq_iff hhead, unsigned?_digitChars,
      ofDigits_digitChars habs, hnat]

end Integers
end Storyboard.Json
