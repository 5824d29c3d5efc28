import Mathlib.Data.Option.Basic
import Storyboard.Json.Quoted

set_option autoImplicit false

/-!
A quoted string is read back as it was written, whatever follows it. Each character is escaped on
its own, so the law is one fact about a character and an induction over the string.
-/

namespace Storyboard.Json.Quoted

theorem hexValue?_hexDigit {n : Nat} (h : n < 16) : hexValue? (hexDigit n) = some n := by
  have all : ∀ k : Fin 16, hexValue? (hexDigit k) = some k.val := by decide
  exact all ⟨n, h⟩

theorem unitValue?_hexDigit {n : Nat} (h : n < 256) :
    unitValue? '0' '0' (hexDigit (n / 16)) (hexDigit (n % 16)) = some n := by
  have hhi : hexValue? (hexDigit (n / 16)) = some (n / 16) := hexValue?_hexDigit (by omega)
  have hlo : hexValue? (hexDigit (n % 16)) = some (n % 16) := hexValue?_hexDigit (by omega)
  have hzero : hexValue? '0' = some 0 := rfl
  simp only [unitValue?, hzero, hhi, hlo, bind, Option.bind, pure]
  congr 1
  omega

theorem join?_char (c : Char) (ps : List Piece) :
    join? (.char c :: ps) = (join? ps).map (c :: ·) := by
  simp [join?]

/-- A unit that is no half of a pair spells its character, whatever comes next. -/
theorem join?_unit {n : Nat} (h : n < 0xD800) (ps : List Piece) :
    join? (.unit n :: ps) = (join? ps).map (Char.ofNat n :: ·) := by
  have hhigh : isHigh n = false := by simp [isHigh]; omega
  have hlow : isLow n = false := by simp [isLow]; omega
  cases ps with
  | nil => simp [join?, hhigh, hlow]
  | cons p ps => cases p <;> simp [join?, hhigh, hlow]

theorem pieces?_plain {c : Char} (hquote : c ≠ '"') (hslash : c ≠ '\\') (hc : 0x20 ≤ c.toNat)
    (r : List Char) :
    pieces? (c :: r) = (pieces? r).map fun p => (.char c :: p.1, p.2) := by
  rw [pieces?.eq_def]
  split
  · simp_all
  · simp_all
  · simp_all
  · rename_i c' r' _ _ _ heq
    cases heq
    simp only [guard, ne_eq, hslash, not_false_eq_true, hc, and_self, if_true, bind, Option.bind]
    cases pieces? r <;> rfl
  · simp_all

theorem pieces?_short {e c : Char} (he : e ≠ 'u') (hc : unescape? e = some c) (r : List Char) :
    pieces? ('\\' :: e :: r) = (pieces? r).map fun p => (.char c :: p.1, p.2) := by
  rw [pieces?]
  · simp only [hc, bind, Option.bind]
    cases pieces? r <;> rfl
  · simp_all

theorem pieces?_escape (c : Char) : ∃ p : Piece,
    (∀ r, pieces? (escape c ++ r) = (pieces? r).map fun q => (p :: q.1, q.2)) ∧
      ∀ ps, join? (p :: ps) = (join? ps).map (c :: ·) := by
  unfold escape
  split
  case h_8 h1 h2 h3 h4 h5 h6 h7 =>
    by_cases hc : c.toNat < 0x20
    · refine ⟨.unit c.toNat, ?_, ?_⟩
      · intro r
        have hunit := unitValue?_hexDigit (n := c.toNat) (by omega)
        simp only [hc, if_true, List.cons_append, List.nil_append, pieces?, hunit, bind, Option.bind]
        cases pieces? r <;> rfl
      · intro ps
        rw [join?_unit (by omega), Char.ofNat_toNat]
    · refine ⟨.char c, ?_, join?_char c⟩
      intro r
      simp only [hc, if_false, List.cons_append, List.nil_append]
      exact pieces?_plain h1 h2 (by omega) r
  all_goals
    refine ⟨_, ?_, join?_char _⟩
    exact pieces?_short (by decide) rfl

theorem pieces?_flatMap_escape (s r : List Char) :
    ∃ ps, pieces? (s.flatMap escape ++ '"' :: r) = some (ps, r) ∧ join? ps = some s := by
  induction s with
  | nil => exact ⟨[], by simp [pieces?], by simp [join?]⟩
  | cons c s ih =>
    obtain ⟨ps, hps, hs⟩ := ih
    obtain ⟨p, hp, hc⟩ := pieces?_escape c
    refine ⟨p :: ps, ?_, ?_⟩
    · rw [List.flatMap_cons, List.append_assoc, hp, hps]
      rfl
    · rw [hc, hs]
      rfl

theorem decode?_flatMap_escape (s r : List Char) :
    decode? (s.flatMap escape ++ '"' :: r) = some (some s, r) := by
  obtain ⟨ps, hps, hs⟩ := pieces?_flatMap_escape s r
  simp [decode?, hps, hs]

theorem pieces?_append {s r : List Char} {ps : List Piece} (h : pieces? s = some (ps, r)) :
    ∃ a, s = a ++ r ∧ ∀ t, pieces? (a ++ t) = some (ps, t) := by
  induction s using pieces?.induct generalizing ps with
  | case1 r' =>
    rw [pieces?] at h
    cases h
    exact ⟨['"'], rfl, fun _ => rfl⟩
  | case2 a b c d r' ih =>
    simp only [pieces?, bind, Option.bind_eq_some_iff, Prod.exists, pure, Option.some.injEq] at h
    obtain ⟨n, hunit, ps', r'', hps, heq⟩ := h
    cases heq
    obtain ⟨u, rfl, hu⟩ := ih hps
    refine ⟨'\\' :: 'u' :: a :: b :: c :: d :: u, rfl, fun t => ?_⟩
    simp [pieces?, hunit, hu]
  | case3 e r' hunit ih =>
    have he : e ≠ 'u' := by
      rintro rfl
      rw [pieces?] at h
      · simp [unescape?] at h
      · exact hunit
    cases hc : unescape? e with
    | none =>
      rw [pieces?] at h
      · simp [hc] at h
      · exact hunit
    | some c =>
      rw [pieces?_short he hc] at h
      obtain ⟨⟨ps', r''⟩, hps, heq⟩ := Option.map_eq_some_iff.mp h
      cases heq
      obtain ⟨u, rfl, hu⟩ := ih hps
      refine ⟨'\\' :: e :: u, rfl, fun t => ?_⟩
      rw [List.cons_append, List.cons_append, pieces?_short he hc, hu]
      rfl
  | case4 c r' hquote hunit hslash ih =>
    have hplain : c ≠ '\\' ∧ 0x20 ≤ c.toNat := by
      by_contra hn
      rw [pieces?, guard, if_neg hn] at h
      · cases h
      all_goals assumption
    rw [pieces?_plain hquote hplain.1 hplain.2] at h
    obtain ⟨⟨ps', r''⟩, hps, heq⟩ := Option.map_eq_some_iff.mp h
    cases heq
    obtain ⟨u, rfl, hu⟩ := ih hps
    refine ⟨c :: u, rfl, fun t => ?_⟩
    rw [List.cons_append, pieces?_plain hquote hplain.1 hplain.2, hu]
    rfl
  | case5 => cases h

theorem decode?_append {s r : List Char} {text : Option (List Char)}
    (h : decode? s = some (text, r)) :
    ∃ a, s = a ++ r ∧ ∀ t, decode? (a ++ t) = some (text, t) := by
  obtain ⟨⟨ps, r'⟩, hps, heq⟩ := Option.map_eq_some_iff.mp h
  cases heq
  obtain ⟨a, ha, hall⟩ := pieces?_append hps
  refine ⟨a, ha, fun t => ?_⟩
  rw [decode?, hall]
  rfl

end Storyboard.Json.Quoted
