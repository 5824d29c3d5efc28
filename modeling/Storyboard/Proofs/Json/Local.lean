import Storyboard.Proofs.Json.Written

set_option autoImplicit false

/-!
Reading goes from left to right. A value that is read to its end is read so whatever follows it, and
the count of steps never matters: it drops out of the equations of the reader.
-/

namespace Storyboard.Json

section Blanks

theorem exists_blanks (s : List Char) :
    ∃ bs, s = bs ++ skipBlank s ∧ ∀ c ∈ bs, isBlank c = true :=
  ⟨s.takeWhile isBlank, List.takeWhile_append_dropWhile.symm, fun _ => List.mem_takeWhile_imp⟩

theorem exists_blanks_cons {s t : List Char} {c : Char} (h : skipBlank s = c :: t) :
    ∃ bs, s = bs ++ c :: t ∧ ∀ c ∈ bs, isBlank c = true := by
  obtain ⟨bs, hs, hbs⟩ := exists_blanks s
  rw [h] at hs
  exact ⟨bs, hs, hbs⟩

variable {bs : List Char}

theorem skipBlank_blanks (h : ∀ c ∈ bs, isBlank c = true) (s : List Char) :
    skipBlank (bs ++ s) = skipBlank s :=
  List.dropWhile_append_of_pos h

theorem skipBlank_blanks_cons (h : ∀ c ∈ bs, isBlank c = true) {c : Char} (hc : isBlank c = false)
    (s : List Char) : skipBlank (bs ++ c :: s) = c :: s := by
  rw [skipBlank_blanks h, skipBlank_of_head hc]

theorem value_blanks (h : ∀ c ∈ bs, isBlank c = true) (n : Nat) (s : List Char) :
    value n (bs ++ s) = value n s := by
  rw [← value_skipBlank, skipBlank_blanks h, value_skipBlank]

theorem ends_of_isBlank {c : Char} (h : isBlank c = true) (s : List Char) : Ends (c :: s) := by
  refine ends_cons ?_
  simp only [isBlank, Bool.or_eq_true, beq_iff_eq] at h
  rcases h with ((rfl | rfl) | rfl) | rfl <;> decide

theorem ends_blanks (h : ∀ c ∈ bs, isBlank c = true) {s : List Char} (hs : Ends s) :
    Ends (bs ++ s) := by
  cases bs with
  | nil => exact hs
  | cons b bs => exact ends_of_isBlank (h b (by simp)) (bs ++ s)

theorem length_skipBlank_le (s : List Char) : (skipBlank s).length ≤ s.length :=
  List.length_dropWhile_le isBlank s

theorem length_lt_of_skipBlank {s t : List Char} {c : Char} (h : skipBlank s = c :: t) :
    t.length < s.length := by
  have hle := length_skipBlank_le s
  rw [h] at hle
  exact hle

end Blanks

/-- How a text begins that is read as a value, and what follows it. -/
inductive Begins (n : Nat) : List Char → Json → List Char → Prop where
  | null (r : List Char) : Begins n ('n' :: 'u' :: 'l' :: 'l' :: r) .null r
  | true (r : List Char) : Begins n ('t' :: 'r' :: 'u' :: 'e' :: r) (.bool true) r
  | false (r : List Char) : Begins n ('f' :: 'a' :: 'l' :: 's' :: 'e' :: r) (.bool false) r
  | string {s r : List Char} {x : Json} (h : string s = (x, some r)) : Begins n ('"' :: s) x r
  | nil {s r : List Char} (h : skipBlank s = ']' :: r) : Begins n ('[' :: s) (.arr []) r
  | arr {s r : List Char} {xs : List Json} (h : items n s = (xs, some r)) :
    Begins n ('[' :: s) (.arr xs) r
  | empty {s r : List Char} (h : skipBlank s = '\x7d' :: r) : Begins n ('\x7b' :: s) (.obj []) r
  | obj {s r : List Char} {es : List (Option String × Json)} (h : entries n s = (es, some r)) :
    Begins n ('\x7b' :: s) (.obj es) r
  | number {s r : List Char} {x : Json} (h : number s = (x, some r)) : Begins n s x r

theorem Begins.skipBlank_eq {n : Nat} {s r : List Char} {x : Json} (h : Begins n s x r) :
    skipBlank s = s := by
  cases h with
  | number h =>
    obtain ⟨c, u, rfl, hc⟩ := exists_head_of_number h
    exact skipBlank_of_head (isBlank_of_number hc) u
  | _ => rfl

theorem entries_skipBlank (n : Nat) (s : List Char) : entries n (skipBlank s) = entries n s := by
  cases n with
  | zero => rfl
  | succ n => simp only [entries, skipBlank_skipBlank]

/-- Where a value or an item stands, its array is not closed. -/
theorem ne_of_value {n : Nat} {s r t : List Char} {x : Json} (h : value n s = (x, some r)) :
    skipBlank s ≠ ']' :: t := by
  intro hs
  cases n with
  | zero => cases h
  | succ n =>
    simp only [value, hs] at h
    obtain ⟨c, u, heq, hc⟩ := exists_head_of_number h
    obtain ⟨rfl, -⟩ := List.cons.inj heq
    exact absurd hc (by decide)

theorem items_eq_some_iff {n : Nat} {s r : List Char} {xs : List Json} :
    items (n + 1) s = (xs, some r) ↔
      ∃ x u, value n s = (x, some u) ∧
        ((∃ v ys, skipBlank u = ',' :: v ∧ items n v = (ys, some r) ∧ xs = x :: ys) ∨
          skipBlank u = ']' :: r ∧ xs = [x]) := by
  constructor
  · intro h
    simp only [items] at h
    split at h
    · cases h
    · rename_i x u hx
      refine ⟨x, u, hx, ?_⟩
      split at h
      · rename_i v hu
        obtain ⟨hxs, hrest⟩ := Prod.mk.inj h
        exact .inl ⟨v, _, hu, Prod.ext rfl hrest, hxs.symm⟩
      · rename_i v hu
        cases h
        exact .inr ⟨hu, rfl⟩
      · cases h
  · rintro ⟨x, u, hx, ⟨v, ys, hu, hv, rfl⟩ | ⟨hu, rfl⟩⟩
    · simp only [items, hx, hu, hv]
    · simp only [items, hx, hu]

theorem entries_eq_some_iff {n : Nat} {s r : List Char} {es : List (Option String × Json)} :
    entries (n + 1) s = (es, some r) ↔
      ∃ t text u v x w, skipBlank s = '"' :: t ∧ Quoted.decode? t = some (text, u) ∧
        skipBlank u = ':' :: v ∧ value n v = (x, some w) ∧
        ((∃ y ys, skipBlank w = ',' :: y ∧ entries n y = (ys, some r) ∧
            es = (text.map String.ofList, x) :: ys) ∨
          skipBlank w = '\x7d' :: r ∧ es = [(text.map String.ofList, x)]) := by
  constructor
  · intro h
    simp only [entries] at h
    split at h
    · rename_i t ht
      split at h
      · cases h
      · rename_i text u hkey
        split at h
        · rename_i v hu
          split at h
          · cases h
          · rename_i x w hx
            refine ⟨t, text, u, v, x, w, ht, hkey, hu, hx, ?_⟩
            split at h
            · rename_i y hw
              obtain ⟨hes, hrest⟩ := Prod.mk.inj h
              exact .inl ⟨y, _, hw, Prod.ext rfl hrest, hes.symm⟩
            · rename_i y hw
              cases h
              exact .inr ⟨hw, rfl⟩
            · cases h
        · cases h
    · cases h
  · rintro ⟨t, text, u, v, x, w, ht, hkey, hu, hx, ⟨y, ys, hw, hy, rfl⟩ | ⟨hw, rfl⟩⟩
    · simp only [entries, ht, hkey, hu, hx, hw, hy]
    · simp only [entries, ht, hkey, hu, hx, hw]

theorem ne_of_items {n : Nat} {s r t : List Char} {xs : List Json}
    (h : items n s = (xs, some r)) : skipBlank s ≠ ']' :: t := by
  cases n with
  | zero => cases h
  | succ n =>
    obtain ⟨x, u, hx, -⟩ := items_eq_some_iff.mp h
    exact ne_of_value hx

theorem ne_of_entries {n : Nat} {s r t : List Char} {es : List (Option String × Json)}
    (h : entries n s = (es, some r)) : skipBlank s ≠ '\x7d' :: t := by
  cases n with
  | zero => cases h
  | succ n =>
    obtain ⟨_, _, _, _, _, _, hs, -⟩ := entries_eq_some_iff.mp h
    simp [hs]

theorem begins_of_value {n : Nat} {s r : List Char} {x : Json}
    (h : value (n + 1) s = (x, some r)) : Begins n (skipBlank s) x r := by
  simp only [value] at h
  split at h
  · rename_i r' hs
    cases h
    rw [hs]
    exact .null r
  · rename_i r' hs
    cases h
    rw [hs]
    exact .true r
  · rename_i r' hs
    cases h
    rw [hs]
    exact .false r
  · rename_i r' hs
    rw [hs]
    exact .string h
  · rename_i u hs
    rw [hs]
    split at h
    · rename_i r' hu
      cases h
      exact .nil hu
    · rw [items_skipBlank] at h
      obtain ⟨rfl, hrest⟩ := Prod.mk.inj h
      exact .arr (Prod.ext rfl hrest)
  · rename_i u hs
    rw [hs]
    split at h
    · rename_i r' hu
      cases h
      exact .empty hu
    · rw [entries_skipBlank] at h
      obtain ⟨rfl, hrest⟩ := Prod.mk.inj h
      exact .obj (Prod.ext rfl hrest)
  · exact .number h

theorem value_of_begins {n : Nat} {s r : List Char} {x : Json} (h : Begins n (skipBlank s) x r) :
    value (n + 1) s = (x, some r) := by
  generalize ht : skipBlank s = t at h
  cases h with
  | null | true | false => simp only [value, ht]
  | string h => simpa only [value, ht] using h
  | nil h => simp only [value, ht, h]
  | @arr u _ xs h =>
    simp only [value, ht]
    split
    · rename_i hu
      exact absurd hu (ne_of_items h)
    · rw [items_skipBlank, h]
  | empty h => simp only [value, ht, h]
  | obj h =>
    simp only [value, ht]
    split
    · rename_i hu
      exact absurd hu (ne_of_entries h)
    · rw [entries_skipBlank, h]
  | number h =>
    obtain ⟨c, u, rfl, hc⟩ := exists_head_of_number h
    rw [← value_skipBlank, ht, value_eq_number hc, h]

theorem value_eq_some_iff {n : Nat} {s r : List Char} {x : Json} :
    value (n + 1) s = (x, some r) ↔ Begins n (skipBlank s) x r :=
  ⟨begins_of_value, value_of_begins⟩

/-- What is read to its end by `n` steps is read so by more, with the rest left over as it is. -/
def Local {β : Type} (f : Nat → List Char → Scan β) (Follows : List Char → Prop) (n : Nat) : Prop :=
  ∀ s x r, f n s = (x, some r) →
    ∃ a, s = a ++ r ∧ ∀ m t, n ≤ m → Follows t → f m (a ++ t) = (x, some t)

theorem local_items {n : Nat} (hvalue : Local value Ends n)
    (hitems : Local items (fun _ => True) n) :
    Local items (fun _ => True) (n + 1) := by
  intro s xs r h
  obtain ⟨x, u, hx, hnext⟩ := items_eq_some_iff.mp h
  obtain ⟨a, rfl, ha⟩ := hvalue s x u hx
  rcases hnext with ⟨v, ys, hu, hys, rfl⟩ | ⟨hu, rfl⟩
  · obtain ⟨bs, rfl, hbs⟩ := exists_blanks_cons hu
    obtain ⟨b, rfl, hb⟩ := hitems v ys r hys
    refine ⟨a ++ (bs ++ ',' :: b), by simp, fun m t hm _ => ?_⟩
    obtain ⟨m, rfl⟩ := Nat.exists_eq_add_of_le' (Nat.le_trans (Nat.le_add_left 1 n) hm)
    simp only [List.append_assoc, List.cons_append]
    exact items_eq_some_iff.mpr ⟨x, _, ha m _ (by omega) (ends_blanks hbs (ends_cons (by decide))),
      .inl ⟨_, ys, skipBlank_blanks_cons hbs rfl _, hb m t (by omega) trivial, rfl⟩⟩
  · obtain ⟨bs, rfl, hbs⟩ := exists_blanks_cons hu
    refine ⟨a ++ (bs ++ [']']), by simp, fun m t hm _ => ?_⟩
    obtain ⟨m, rfl⟩ := Nat.exists_eq_add_of_le' (Nat.le_trans (Nat.le_add_left 1 n) hm)
    simp only [List.append_assoc, List.cons_append, List.nil_append]
    exact items_eq_some_iff.mpr ⟨x, _, ha m _ (by omega) (ends_blanks hbs (ends_cons (by decide))),
      .inr ⟨skipBlank_blanks_cons hbs rfl _, rfl⟩⟩

theorem local_entries {n : Nat} (hvalue : Local value Ends n)
    (hentries : Local entries (fun _ => True) n) : Local entries (fun _ => True) (n + 1) := by
  intro s es r h
  obtain ⟨t, text, u, v, x, w, hs, hkey, hu, hx, hnext⟩ := entries_eq_some_iff.mp h
  obtain ⟨blank, rfl, hblank⟩ := exists_blanks_cons hs
  obtain ⟨key, rfl, hname⟩ := Quoted.decode?_append hkey
  obtain ⟨gap, rfl, hgap⟩ := exists_blanks_cons hu
  obtain ⟨a, rfl, ha⟩ := hvalue v x w hx
  rcases hnext with ⟨y, ys, hw, hys, rfl⟩ | ⟨hw, rfl⟩
  · obtain ⟨bs, rfl, hbs⟩ := exists_blanks_cons hw
    obtain ⟨b, rfl, hb⟩ := hentries y ys r hys
    refine ⟨blank ++ '"' :: (key ++ (gap ++ ':' :: (a ++ (bs ++ ',' :: b)))), by simp,
      fun m t hm _ => ?_⟩
    obtain ⟨m, rfl⟩ := Nat.exists_eq_add_of_le' (Nat.le_trans (Nat.le_add_left 1 n) hm)
    simp only [List.append_assoc, List.cons_append]
    exact entries_eq_some_iff.mpr ⟨_, text, _, _, x, _, skipBlank_blanks_cons hblank rfl _, hname _,
      skipBlank_blanks_cons hgap rfl _,
      ha m _ (by omega) (ends_blanks hbs (ends_cons (by decide))),
      .inl ⟨_, ys, skipBlank_blanks_cons hbs rfl _, hb m t (by omega) trivial, rfl⟩⟩
  · obtain ⟨bs, rfl, hbs⟩ := exists_blanks_cons hw
    refine ⟨blank ++ '"' :: (key ++ (gap ++ ':' :: (a ++ (bs ++ ['\x7d'])))), by simp,
      fun m t hm _ => ?_⟩
    obtain ⟨m, rfl⟩ := Nat.exists_eq_add_of_le' (Nat.le_trans (Nat.le_add_left 1 n) hm)
    simp only [List.append_assoc, List.cons_append, List.nil_append]
    exact entries_eq_some_iff.mpr ⟨_, text, _, _, x, _, skipBlank_blanks_cons hblank rfl _, hname _,
      skipBlank_blanks_cons hgap rfl _,
      ha m _ (by omega) (ends_blanks hbs (ends_cons (by decide))),
      .inr ⟨skipBlank_blanks_cons hbs rfl _, rfl⟩⟩

theorem string_append {s r : List Char} {x : Json} (h : string s = (x, some r)) :
    ∃ a, s = a ++ r ∧ ∀ t, string (a ++ t) = (x, some t) := by
  unfold string at h
  split at h
  · rename_i text r' hs
    cases h
    obtain ⟨a, ha, hall⟩ := Quoted.decode?_append hs
    refine ⟨a, ha, fun t => ?_⟩
    rw [string, hall]
  · rename_i r' hs
    cases h
    obtain ⟨a, ha, hall⟩ := Quoted.decode?_append hs
    refine ⟨a, ha, fun t => ?_⟩
    rw [string, hall]
  · cases h

theorem local_value {n : Nat} (hitems : Local items (fun _ => True) n)
    (hentries : Local entries (fun _ => True) n) : Local value Ends (n + 1) := by
  intro s x r h
  obtain ⟨bs, hs, hbs⟩ := exists_blanks s
  have hbegins := value_eq_some_iff.mp h
  generalize skipBlank s = t at hs hbegins
  subst hs
  -- it is enough to find what was read behind the blanks
  suffices hread : ∃ a, t = a ++ r ∧ ∀ m u, n ≤ m → Ends u → Begins m (a ++ u) x u by
    obtain ⟨a, rfl, ha⟩ := hread
    refine ⟨bs ++ a, by simp, fun m u hm hu => ?_⟩
    obtain ⟨m, rfl⟩ := Nat.exists_eq_add_of_le' (Nat.le_trans (Nat.le_add_left 1 n) hm)
    have hbegins := ha m u (by omega) hu
    rwa [List.append_assoc, value_eq_some_iff, skipBlank_blanks hbs, hbegins.skipBlank_eq]
  cases hbegins with
  | null => exact ⟨['n', 'u', 'l', 'l'], rfl, fun m u _ _ => .null u⟩
  | true => exact ⟨['t', 'r', 'u', 'e'], rfl, fun m u _ _ => .true u⟩
  | false => exact ⟨['f', 'a', 'l', 's', 'e'], rfl, fun m u _ _ => .false u⟩
  | string h =>
    obtain ⟨a, rfl, ha⟩ := string_append h
    exact ⟨'"' :: a, rfl, fun m u _ _ => .string (ha u)⟩
  | nil h =>
    obtain ⟨gap, rfl, hgap⟩ := exists_blanks_cons h
    refine ⟨'[' :: (gap ++ [']']), by simp, fun m u _ _ => ?_⟩
    rw [List.cons_append, List.append_assoc]
    exact .nil (skipBlank_blanks_cons hgap rfl u)
  | arr h =>
    obtain ⟨a, rfl, ha⟩ := hitems _ _ _ h
    exact ⟨'[' :: a, rfl, fun m u hm _ => .arr (ha m u hm trivial)⟩
  | empty h =>
    obtain ⟨gap, rfl, hgap⟩ := exists_blanks_cons h
    refine ⟨'\x7b' :: (gap ++ ['\x7d']), by simp, fun m u _ _ => ?_⟩
    rw [List.cons_append, List.append_assoc]
    exact .empty (skipBlank_blanks_cons hgap rfl u)
  | obj h =>
    obtain ⟨a, rfl, ha⟩ := hentries _ _ _ h
    exact ⟨'\x7b' :: a, rfl, fun m u hm _ => .obj (ha m u hm trivial)⟩
  | number h =>
    obtain ⟨a, rfl, ha⟩ := number_cut h
    exact ⟨a, rfl, fun m u _ hu => .number (number_append ha hu)⟩

theorem local_all (n : Nat) :
    Local value Ends n ∧ Local items (fun _ => True) n ∧ Local entries (fun _ => True) n := by
  induction n with
  | zero =>
    refine ⟨fun s x r h => ?_, fun s xs r h => ?_, fun s es r h => ?_⟩ <;> cases h
  | succ n ih =>
    obtain ⟨hvalue, hitems, hentries⟩ := ih
    exact ⟨local_value hitems hentries, local_items hvalue hitems, local_entries hvalue hentries⟩

theorem length_le_of_value {n : Nat} {s r : List Char} {x : Json} (h : value n s = (x, some r)) :
    r.length ≤ s.length := by
  obtain ⟨a, rfl, -⟩ := (local_all n).1 s x r h
  simp

theorem length_le_of_decode? {s r : List Char} {text : Option (List Char)}
    (h : Quoted.decode? s = some (text, r)) : r.length ≤ s.length := by
  obtain ⟨a, rfl, -⟩ := Quoted.decode?_append h
  simp

/-- Beyond twice the length of a text and `k`, the count makes no difference to what is read of
it. -/
def Settled {β : Type} (f : Nat → List Char → Scan β) (k n : Nat) : Prop :=
  ∀ m s, 2 * s.length + k < n → 2 * s.length + k < m → f n s = f m s

theorem settled_value {n : Nat} (hitems : Settled items 1 n) (hentries : Settled entries 1 n) :
    Settled value 0 (n + 1) := by
  intro m s hn hm
  obtain ⟨m, rfl⟩ := Nat.exists_eq_add_of_le' (Nat.lt_of_le_of_lt (Nat.zero_le _) hm)
  simp only [value]
  split
  case h_5 r hs =>
    have hlt := length_lt_of_skipBlank hs
    have hle := length_skipBlank_le r
    have hrest := hitems m (skipBlank r) (by omega) (by omega)
    split
    · rfl
    · rw [hrest]
  case h_6 r hs =>
    have hlt := length_lt_of_skipBlank hs
    have hle := length_skipBlank_le r
    have hrest := hentries m (skipBlank r) (by omega) (by omega)
    split
    · rfl
    · rw [hrest]
  all_goals rfl

theorem settled_items {n : Nat} (hvalue : Settled value 0 n) (hitems : Settled items 1 n) :
    Settled items 1 (n + 1) := by
  intro m s hn hm
  obtain ⟨m, rfl⟩ := Nat.exists_eq_add_of_le' (Nat.lt_of_le_of_lt (Nat.zero_le _) hm)
  simp only [items]
  rw [hvalue m s (by omega) (by omega)]
  split
  · rfl
  · rename_i x r hx
    have hle := length_le_of_value hx
    split
    · rename_i v hr
      have hlt := length_lt_of_skipBlank hr
      rw [hitems m v (by omega) (by omega)]
    · rfl
    · rfl

theorem settled_entries {n : Nat} (hvalue : Settled value 0 n) (hentries : Settled entries 1 n) :
    Settled entries 1 (n + 1) := by
  intro m s hn hm
  obtain ⟨m, rfl⟩ := Nat.exists_eq_add_of_le' (Nat.lt_of_le_of_lt (Nat.zero_le _) hm)
  simp only [entries]
  split
  · rename_i t ht
    have hlt := length_lt_of_skipBlank ht
    split
    · rfl
    · rename_i text u hkey
      have hu := length_le_of_decode? hkey
      split
      · rename_i v hv
        have hlt' := length_lt_of_skipBlank hv
        rw [hvalue m v (by omega) (by omega)]
        split
        · rfl
        · rename_i x w hx
          have hw := length_le_of_value hx
          split
          · rename_i y hy
            have hlt'' := length_lt_of_skipBlank hy
            rw [hentries m y (by omega) (by omega)]
          · rfl
          · rfl
      · rfl
  · rfl

theorem settled_all (n : Nat) : Settled value 0 n ∧ Settled items 1 n ∧ Settled entries 1 n := by
  induction n with
  | zero => refine ⟨fun m s h => ?_, fun m s h => ?_, fun m s h => ?_⟩ <;> omega
  | succ n ih =>
    obtain ⟨hvalue, hitems, hentries⟩ := ih
    exact ⟨settled_value hitems hentries, settled_items hvalue hitems,
      settled_entries hvalue hentries⟩

def scanItems (s : List Char) : Scan (List Json) := items (2 * s.length + 2) s

def scanEntries (s : List Char) : Scan (List (Option String × Json)) :=
  entries (2 * s.length + 2) s

def afterItem (x : Json) : Option (List Char) → Scan (List Json)
  | none => ([x], none)
  | some r => match skipBlank r with
    | ',' :: r => (x :: (scanItems r).1, (scanItems r).2)
    | ']' :: r => ([x], some r)
    | _ => ([x, .broken], none)

def afterEntry (e : Option String × Json) :
    Option (List Char) → Scan (List (Option String × Json))
  | none => ([e], none)
  | some r => match skipBlank r with
    | ',' :: r => (e :: (scanEntries r).1, (scanEntries r).2)
    | '\x7d' :: r => ([e], some r)
    | _ => ([e, (none, .broken)], none)

section Equations
variable {n : Nat} {s : List Char}

theorem value_eq_scan (h : 2 * s.length < n) : value n s = scan s :=
  (settled_all n).1 _ s h (Nat.lt_succ_self _)

theorem items_eq_scanItems (h : 2 * s.length + 1 < n) : items n s = scanItems s :=
  (settled_all n).2.1 _ s h (Nat.lt_succ_self _)

theorem entries_eq_scanEntries (h : 2 * s.length + 1 < n) : entries n s = scanEntries s :=
  (settled_all n).2.2 _ s h (Nat.lt_succ_self _)

theorem scan_append {r : List Char} {x : Json} (h : scan s = (x, some r)) :
    ∃ a, s = a ++ r ∧ ∀ t, Ends t → scan (a ++ t) = (x, some t) := by
  obtain ⟨a, ha, hall⟩ := (local_all _).1 s x r h
  refine ⟨a, ha, fun t ht => ?_⟩
  have hmore := hall (2 * s.length + 1 + (2 * (a ++ t).length + 1)) t (by omega) ht
  rwa [value_eq_scan (by omega)] at hmore

theorem scan_blanks {bs : List Char} (h : ∀ c ∈ bs, isBlank c = true) (s : List Char) :
    scan (bs ++ s) = scan s := by
  have hlength : s.length ≤ (bs ++ s).length := by simp
  rw [scan, value_blanks h, value_eq_scan (by omega)]

theorem scan_skipBlank (s : List Char) : scan (skipBlank s) = scan s := by
  have hlength := length_skipBlank_le s
  rw [← value_eq_scan (n := 2 * s.length + 1) (by omega), value_skipBlank, scan]

theorem scan_quote (s : List Char) : scan ('"' :: s) = string s := rfl

theorem scan_bracket (h : ∀ r, skipBlank s ≠ ']' :: r) :
    scan ('[' :: s) = (.arr (scanItems s).1, (scanItems s).2) := by
  simp only [scan, value, skipBlank_of_head (c := '[') rfl]
  rw [items_skipBlank, items_eq_scanItems (by simp; omega)]

theorem scan_brace (h : ∀ r, skipBlank s ≠ '\x7d' :: r) :
    scan ('\x7b' :: s) = (.obj (scanEntries s).1, (scanEntries s).2) := by
  simp only [scan, value, skipBlank_of_head (c := '\x7b') rfl]
  rw [entries_skipBlank, entries_eq_scanEntries (by simp; omega)]

theorem scanItems_eq (s : List Char) : scanItems s = afterItem (scan s).1 (scan s).2 := by
  rw [scanItems, items, value_eq_scan (by omega)]
  rcases hx : scan s with ⟨x, _ | r⟩
  · rfl
  · obtain ⟨a, ha, -⟩ := scan_append hx
    have hle : r.length ≤ s.length := by simp [ha]
    simp only [afterItem]
    rcases hr : skipBlank r with _ | ⟨c, v⟩
    · rfl
    · have hlt := length_lt_of_skipBlank hr
      have hrest := items_eq_scanItems (n := 2 * s.length + 1) (s := v) (by omega)
      by_cases hcomma : c = ','
      · simp only [hcomma, hrest]
      · by_cases hend : c = ']'
        · simp only [hend]
        · simp [hcomma, hend]

theorem scanEntries_eq {t u v : List Char} {text : Option (List Char)} (ht : skipBlank s = '"' :: t)
    (hkey : Quoted.decode? t = some (text, u)) (hu : skipBlank u = ':' :: v) :
    scanEntries s = afterEntry (text.map String.ofList, (scan v).1) (scan v).2 := by
  have hlt := length_lt_of_skipBlank ht
  have hle := length_le_of_decode? hkey
  have hlt' := length_lt_of_skipBlank hu
  rw [scanEntries, entries, ht]
  simp only [hkey, hu]
  rw [value_eq_scan (by omega)]
  rcases hx : scan v with ⟨x, _ | r⟩
  · rfl
  · obtain ⟨a, ha, -⟩ := scan_append hx
    have hle' : r.length ≤ v.length := by simp [ha]
    simp only [afterEntry]
    rcases hr : skipBlank r with _ | ⟨c, y⟩
    · rfl
    · have hlt'' := length_lt_of_skipBlank hr
      have hrest := entries_eq_scanEntries (n := 2 * s.length + 1) (s := y) (by omega)
      by_cases hcomma : c = ','
      · simp only [hcomma, hrest]
      · by_cases hend : c = '\x7d'
        · simp only [hend]
        · simp [hcomma, hend]

end Equations
end Storyboard.Json
