import Storyboard.Proofs.Json.Number
import Storyboard.Proofs.Json.Quoted

set_option autoImplicit false

/-!
What is written is read back. A written value has names for all keys, integers of 64 bits and
numbers that meet a condition; if that is to be read back from their own text, then the whole value
is read back from its text.
-/

namespace Storyboard.Json

def soleFloat? (s : List Char) : Option Float :=
  match scan s with
  | (.float x, some []) => some x
  | _ => none

/-- The number is read back from its own text as it was. -/
def Rereads (x : Float) : Prop := soleFloat? (floatText x).toList = some x

instance : DecidablePred Rereads := fun x =>
  inferInstanceAs (Decidable (soleFloat? (floatText x).toList = some x))

/-- A value as the library writes it: its arrays and objects are nested at most so deep, and its
numbers meet a condition. -/
inductive Written (P : Float → Prop) : Nat → Json → Prop where
  | bool (depth : Nat) (b : Bool) : Written P depth (.bool b)
  | int {depth : Nat} {n : Int} (low : Int64.minValue.toInt ≤ n) (high : n < UInt64.size) :
    Written P depth (.int n)
  | float {depth : Nat} {x : Float} (h : P x) : Written P depth (.float x)
  | str (depth : Nat) (s : String) : Written P depth (.str s)
  | arr {depth : Nat} {xs : List Json} (h : ∀ x ∈ xs, Written P depth x) :
    Written P (depth + 1) (.arr xs)
  | record {depth : Nat} {es : List (String × Json)} (h : ∀ e ∈ es, Written P depth e.2) :
    Written P (depth + 1) (record es)

section Blanks

theorem skipBlank_lineBreak (level : Nat) (s : List Char) :
    skipBlank (lineBreak level ++ s) = skipBlank s := by
  apply List.dropWhile_append_of_pos
  intro c hc
  simp only [lineBreak, List.mem_cons, List.mem_replicate] at hc
  rcases hc with rfl | ⟨-, rfl⟩ <;> rfl

theorem skipBlank_of_head {c : Char} (hc : isBlank c = false) (s : List Char) :
    skipBlank (c :: s) = c :: s := by
  simp [skipBlank, hc]

theorem skipBlank_skipBlank (s : List Char) : skipBlank (skipBlank s) = skipBlank s := by
  unfold skipBlank
  cases h : s.dropWhile isBlank with
  | nil => rfl
  | cons c t =>
    have hhead := List.head?_dropWhile_not isBlank s
    rw [h] at hhead
    exact skipBlank_of_head (by simpa using hhead) t

theorem value_skipBlank (n : Nat) (s : List Char) : value n (skipBlank s) = value n s := by
  cases n with
  | zero => rfl
  | succ n => simp only [value, skipBlank_skipBlank]

end Blanks

theorem isBlank_of_number {c : Char} (hc : c = '-' ∨ c.isDigit = true) : isBlank c = false := by
  rcases hc with rfl | hc
  · rfl
  · simp only [isBlank, Bool.or_eq_false_iff, beq_eq_false_iff_ne]
    refine ⟨⟨⟨?_, ?_⟩, ?_⟩, ?_⟩ <;> (rintro rfl; revert hc; decide)

theorem value_eq_number {c : Char} (hc : c = '-' ∨ c.isDigit = true) (n : Nat) (s : List Char) :
    value (n + 1) (c :: s) = number (c :: s) := by
  simp only [value, skipBlank_of_head (isBlank_of_number hc)]
  split
  case h_7 => rfl
  all_goals
    rename_i heq
    obtain ⟨rfl, -⟩ := List.cons.inj heq
    exact absurd hc (by decide)

theorem number_of_value_eq_float {n : Nat} {s : List Char} {x : Float} {rest : Option (List Char)}
    (h : value (n + 1) s = (.float x, rest)) : number (skipBlank s) = (.float x, rest) := by
  simp only [value] at h
  split at h
  case h_7 => exact h
  case h_4 =>
    unfold string at h
    split at h <;> simp at h
  case h_5 | h_6 => split at h <;> simp at h
  all_goals simp at h

theorem number_of_rereads {x : Float} (h : Rereads x) :
    number (skipBlank (floatText x).toList) = (.float x, some []) := by
  apply number_of_value_eq_float (n := 2 * (floatText x).toList.length)
  unfold Rereads soleFloat? at h
  split at h
  · rename_i y hy
    cases h
    exact hy
  · cases h

variable {depth : Nat}

/-- Past its blanks, a written value starts with a character that closes nothing. -/
theorem exists_head_prettyChars {j : Json} (h : Written Rereads depth j) (level : Nat) :
    ∃ c t, skipBlank (prettyChars level j) = c :: t ∧ c ≠ ']' := by
  have hplain {c : Char} {t : List Char} (hb : isBlank c = false) (hc : c ≠ ']') :
      ∃ c' t', skipBlank (c :: t) = c' :: t' ∧ c' ≠ ']' := ⟨c, t, skipBlank_of_head hb t, hc⟩
  have hnumber {s t : List Char} {x : Json} (hs : number s = (x, some t)) :
      ∃ c t, skipBlank s = c :: t ∧ c ≠ ']' := by
    obtain ⟨c, u, rfl, hc⟩ := exists_head_of_number hs
    refine hplain (isBlank_of_number hc) ?_
    rintro rfl
    exact absurd hc (by decide)
  cases h with
  | bool _ b => cases b <;> exact hplain rfl (by decide)
  | @int _ n low high =>
    have hn := number_intChars low high ends_nil
    rw [List.append_nil] at hn
    exact hnumber hn
  | float hx =>
    have hx := hnumber (number_of_rereads hx)
    rwa [skipBlank_skipBlank] at hx
  | str _ s => exact hplain rfl (by decide)
  | @arr depth xs h => cases xs <;> exact hplain rfl (by decide)
  | @record depth es h => cases es <;> exact hplain rfl (by decide)

/-- The text of a value is read as that value up to where the text ends. -/
def ReadsBack (level : Nat) (j : Json) : Prop :=
  ∀ n r, (prettyChars level j).length < n → Ends r →
    value n (prettyChars level j ++ r) = (j, some r)

theorem items_skipBlank (n : Nat) (s : List Char) : items n (skipBlank s) = items n s := by
  cases n with
  | zero => rfl
  | succ n => simp only [items, value_skipBlank]

theorem items_lineBreak (n level : Nat) (s : List Char) :
    items n (lineBreak level ++ s) = items n s := by
  rw [← items_skipBlank, skipBlank_lineBreak, items_skipBlank]

theorem entries_lineBreak (n level : Nat) (s : List Char) :
    entries n (lineBreak level ++ s) = entries n s := by
  cases n with
  | zero => rfl
  | succ n => simp only [entries, skipBlank_lineBreak]

theorem ends_lineBreak (level : Nat) (s : List Char) : Ends (lineBreak level ++ s) :=
  ends_cons (by decide)

theorem items_prettyItems {level : Nat} {x : Json} {xs : List Json} {tail r : List Char} {n : Nat}
    (hx : ReadsBack level x) (hxs : ∀ y ∈ xs, ReadsBack level y) (hends : Ends tail)
    (htail : skipBlank tail = ']' :: r)
    (hn : (prettyChars level x).length + (prettyItems level xs).length + 1 < n) :
    items n (prettyChars level x ++ (prettyItems level xs ++ tail)) = (x :: xs, some r) := by
  induction xs generalizing x n with
  | nil =>
    obtain ⟨n, rfl⟩ := Nat.exists_eq_succ_of_ne_zero (Nat.ne_of_gt (Nat.zero_lt_of_lt hn))
    have hvalue := hx n tail (by omega) hends
    simp only [prettyItems, List.nil_append, items, hvalue, htail]
  | cons y ys ih =>
    obtain ⟨n, rfl⟩ := Nat.exists_eq_succ_of_ne_zero (Nat.ne_of_gt (Nat.zero_lt_of_lt hn))
    simp only [prettyItems, List.cons_append, List.append_assoc, List.length_cons,
      List.length_append] at hn ⊢
    have hcomma : Ends (',' :: (lineBreak level ++ (prettyChars level y ++
        (prettyItems level ys ++ tail)))) := ends_cons (by decide)
    have hvalue := hx n _ (by omega) hcomma
    have hrest := ih (x := y) (n := n) (hxs y (by simp)) (fun z hz => hxs z (by simp [hz])) (by omega)
    simp only [items, hvalue, skipBlank_of_head (c := ',') rfl, items_lineBreak, hrest]

def named (es : List (String × Json)) : List (Option String × Json) :=
  es.map fun (k, v) => (some k, v)

theorem entries_prettyEntries {level : Nat} {k : String} {x : Json} {es : List (String × Json)}
    {tail r : List Char} {n : Nat} (hx : ReadsBack level x) (hes : ∀ e ∈ es, ReadsBack level e.2)
    (hends : Ends tail) (htail : skipBlank tail = '\x7d' :: r)
    (hn : (prettyChars level x).length + (prettyEntries level (named es)).length + 1 < n) :
    entries n (Quoted.encode k.toList ++ (':' :: ' ' :: (prettyChars level x ++
      (prettyEntries level (named es) ++ tail)))) = ((some k, x) :: named es, some r) := by
  have hblank (n : Nat) (s : List Char) : value n (' ' :: s) = value n s := by
    rw [← value_skipBlank, ← value_skipBlank n s]
    rfl
  induction es generalizing k x n with
  | nil =>
    obtain ⟨n, rfl⟩ := Nat.exists_eq_succ_of_ne_zero (Nat.ne_of_gt (Nat.zero_lt_of_lt hn))
    have hvalue := hx n tail (by omega) hends
    simp only [named, List.map_nil, prettyEntries, List.nil_append, Quoted.encode, List.cons_append,
      List.append_assoc, entries, skipBlank_of_head (c := '"') rfl, Quoted.decode?_flatMap_escape,
      Option.map_some, String.ofList_toList, skipBlank_of_head (c := ':') rfl, hblank, hvalue, htail]
  | cons e es ih =>
    obtain ⟨key, y⟩ := e
    obtain ⟨n, rfl⟩ := Nat.exists_eq_succ_of_ne_zero (Nat.ne_of_gt (Nat.zero_lt_of_lt hn))
    have hnamed : named ((key, y) :: es) = (some key, y) :: named es := rfl
    simp only [hnamed, prettyEntries, Option.getD_some, List.cons_append, List.append_assoc,
      List.length_cons, List.length_append] at hn ⊢
    have hcomma : Ends (',' :: (lineBreak level ++ (Quoted.encode key.toList ++ (':' :: ' ' ::
        (prettyChars level y ++ (prettyEntries level (named es) ++ tail)))))) :=
      ends_cons (by decide)
    have hvalue := hx n _ (by omega) hcomma
    have hrest := ih (k := key) (x := y) (n := n) (hes (key, y) (by simp))
      (fun z hz => hes z (by simp [hz])) (by omega)
    have hhead : Quoted.encode k.toList = '"' :: (k.toList.flatMap Quoted.escape ++ ['"']) := rfl
    simp only [hhead, List.cons_append, List.append_assoc, List.nil_append, entries,
      skipBlank_of_head (c := '"') rfl, Quoted.decode?_flatMap_escape, Option.map_some,
      String.ofList_toList, skipBlank_of_head (c := ':') rfl, hblank, hvalue,
      skipBlank_of_head (c := ',') rfl, entries_lineBreak, hrest]

theorem skipBlank_append {s t : List Char} {c : Char} (h : skipBlank s = c :: t) (r : List Char) :
    skipBlank (s ++ r) = c :: (t ++ r) := by
  unfold skipBlank at h ⊢
  rw [List.dropWhile_append, h]
  rfl

theorem readsBack_float {x : Float} (h : Rereads x) (level : Nat) : ReadsBack level (.float x) := by
  intro n r hn hr
  obtain ⟨n, rfl⟩ := Nat.exists_eq_succ_of_ne_zero (Nat.ne_of_gt (Nat.zero_lt_of_lt hn))
  have hx := number_of_rereads h
  obtain ⟨c, t, hs, hc⟩ := exists_head_of_number hx
  have htext := number_append hx hr
  rw [hs, List.cons_append] at htext
  rw [prettyChars, ← value_skipBlank, skipBlank_append hs, value_eq_number hc, htext]
  rfl

theorem readsBack_arr {xs : List Json} (level : Nat) (h : ∀ x ∈ xs, ReadsBack (level + 1) x)
    (hhead : ∀ x ∈ xs, ∃ c t, skipBlank (prettyChars (level + 1) x) = c :: t ∧ c ≠ ']') :
    ReadsBack level (.arr xs) := by
  intro n r hn hr
  obtain ⟨n, rfl⟩ := Nat.exists_eq_succ_of_ne_zero (Nat.ne_of_gt (Nat.zero_lt_of_lt hn))
  cases xs with
  | nil => rfl
  | cons x xs =>
    simp only [prettyChars, List.cons_append, List.append_assoc, List.length_cons,
      List.length_append, List.nil_append] at hn ⊢
    have hclose : skipBlank (lineBreak level ++ ']' :: r) = ']' :: r := by
      rw [skipBlank_lineBreak]
      rfl
    have hitems := items_prettyItems (n := n) (h x (by simp))
      (fun y (hy : y ∈ xs) => h y (by simp [hy])) (ends_lineBreak level (']' :: r)) hclose (by omega)
    obtain ⟨c, t, hs, hc⟩ := hhead x (by simp)
    have hfirst := skipBlank_append hs
      (prettyItems (level + 1) xs ++ (lineBreak level ++ ']' :: r))
    rw [← items_skipBlank, hfirst] at hitems
    simp only [value, skipBlank_of_head (c := '[') rfl, skipBlank_lineBreak, hfirst]
    split
    · simp_all
    · rw [hitems]

theorem readsBack_record {es : List (String × Json)} (level : Nat)
    (h : ∀ e ∈ es, ReadsBack (level + 1) e.2) : ReadsBack level (record es) := by
  intro n r hn hr
  obtain ⟨n, rfl⟩ := Nat.exists_eq_succ_of_ne_zero (Nat.ne_of_gt (Nat.zero_lt_of_lt hn))
  cases es with
  | nil => rfl
  | cons e es =>
    obtain ⟨k, x⟩ := e
    have hrecord : record ((k, x) :: es) = .obj ((some k, x) :: named es) := rfl
    simp only [hrecord, prettyChars, Option.getD_some, List.cons_append, List.append_assoc,
      List.length_cons, List.length_append, List.nil_append] at hn ⊢
    have hclose : skipBlank (lineBreak level ++ '\x7d' :: r) = '\x7d' :: r := by
      rw [skipBlank_lineBreak]
      rfl
    have hx : ReadsBack (level + 1) x := h (k, x) (by simp)
    have hentries := entries_prettyEntries (k := k) (n := n) hx
      (fun y (hy : y ∈ es) => h y (by simp [hy])) (ends_lineBreak level ('\x7d' :: r)) hclose
      (by omega)
    have hfirst (s : List Char) : skipBlank (Quoted.encode k.toList ++ s) =
        Quoted.encode k.toList ++ s := rfl
    simp only [value, skipBlank_of_head (c := '\x7b') rfl, skipBlank_lineBreak, hfirst]
    split
    · rename_i heq
      exact absurd (List.cons.inj heq).1 (by decide)
    · rw [hentries]

theorem readsBack_of_written {j : Json} (h : Written Rereads depth j) (level : Nat) :
    ReadsBack level j := by
  induction h generalizing level with
  | bool _ b =>
    intro n r hn _
    obtain ⟨n, rfl⟩ := Nat.exists_eq_succ_of_ne_zero (Nat.ne_of_gt (Nat.zero_lt_of_lt hn))
    cases b <;> rfl
  | int low high =>
    intro n r hn hr
    obtain ⟨n, rfl⟩ := Nat.exists_eq_succ_of_ne_zero (Nat.ne_of_gt (Nat.zero_lt_of_lt hn))
    have hint := number_intChars low high ends_nil
    rw [List.append_nil] at hint
    obtain ⟨c, t, hs, hc⟩ := exists_head_of_number hint
    rw [prettyChars, hs, List.cons_append, value_eq_number hc, ← List.cons_append, ← hs]
    exact number_intChars low high hr
  | float h => exact readsBack_float h level
  | str _ s =>
    intro n r hn _
    obtain ⟨n, rfl⟩ := Nat.exists_eq_succ_of_ne_zero (Nat.ne_of_gt (Nat.zero_lt_of_lt hn))
    have hs := Quoted.decode?_flatMap_escape s.toList r
    simp only [prettyChars, Quoted.encode, List.cons_append, List.append_assoc, List.nil_append,
      value, skipBlank_of_head (c := '"') rfl, string, hs, String.ofList_toList]
  | arr h ih =>
    exact readsBack_arr level (fun x hx => ih x hx (level + 1))
      fun x hx => exists_head_prettyChars (h x hx) (level + 1)
  | record h ih => exact readsBack_record level fun e he => ih e he (level + 1)

theorem scan_pretty {j : Json} (h : Written Rereads depth j) :
    scan j.pretty.toList = (j, some []) := by
  have hvalue := readsBack_of_written h 0 (2 * (prettyChars 0 j).length + 1) [] (by omega) ends_nil
  rw [List.append_nil] at hvalue
  rw [pretty, String.toList_ofList]
  exact hvalue

end Storyboard.Json
