import Storyboard.Proofs.Json.Local

set_option autoImplicit false

/-!
Places in a text. A place is the way to a value from outside to inside, by the index of an item or
an entry at each step. What stands at a place of a text may be replaced there, and nothing else that
is read of the text changes.
-/

namespace Storyboard.Json

/-- The value with something made of its item or entry of an index. -/
def modifyAt (i : Nat) (f : Json → Json) : Json → Json
  | .arr xs => .arr (xs.modify i f)
  | .obj es => .obj (es.modify i fun e => (e.1, f e.2))
  | j => j

def child? (i : Nat) : Json → Option Json
  | .arr xs => xs[i]?
  | .obj es => es[i]?.map Prod.snd
  | _ => none

def at? : List Nat → Json → Option Json
  | [], j => some j
  | i :: p, j => (j.child? i).bind (at? p)

def put (x : Json) : List Nat → Json → Json
  | [], _ => x
  | i :: p, j => j.modifyAt i (put x p)

def skipItems : Nat → List Char → Option (List Char)
  | 0, s => some s
  | i + 1, s => do
    let r ← (scan s).2
    match skipBlank r with
    | ',' :: r => skipItems i r
    | _ => none

def entryValue? (s : List Char) : Option (List Char) :=
  match skipBlank s with
  | '"' :: r => do
    let (_, r) ← Quoted.decode? r
    match skipBlank r with
    | ':' :: r => some r
    | _ => none
  | _ => none

def skipEntries : Nat → List Char → Option (List Char)
  | 0, s => entryValue? s
  | i + 1, s => do
    let r ← (scan (← entryValue? s)).2
    match skipBlank r with
    | ',' :: r => skipEntries i r
    | _ => none

/-- The text from the value at a place on. -/
def seek : List Nat → List Char → Option (List Char)
  | [], s => some (skipBlank s)
  | i :: p, s =>
    match skipBlank s with
    | '[' :: r => match skipBlank r with
      | ']' :: _ => none
      | _ => do seek p (← skipItems i r)
    | '\x7b' :: r => do seek p (← skipEntries i r)
    | _ => none

/-- The text in three parts: what stands before the value at a place, that value, and the rest. -/
def cut? (p : List Nat) (s : List Char) : Option (List Char × List Char × List Char) := do
  let t ← seek p s
  let rest ← (scan t).2
  return (s.take (s.length - t.length), t.take (t.length - rest.length), rest)

section Items

theorem afterItem_eq (f : Json → Json) (x : Json) (rest : Option (List Char)) :
    afterItem (f x) rest = ((afterItem x rest).1.modify 0 f, (afterItem x rest).2) := by
  cases rest with
  | none => rfl
  | some r =>
    simp only [afterItem]
    split <;> rfl

theorem getElem?_afterItem_zero (x : Json) (rest : Option (List Char)) :
    (afterItem x rest).1[0]? = some x := by
  cases rest with
  | none => rfl
  | some r =>
    simp only [afterItem]
    split <;> rfl

theorem skipItems_succ_eq_some_iff {i : Nat} {s u : List Char} :
    skipItems (i + 1) s = some u ↔
      ∃ x r v, scan s = (x, some r) ∧ skipBlank r = ',' :: v ∧ skipItems i v = some u := by
  simp only [skipItems, bind, Option.bind_eq_some_iff]
  constructor
  · rintro ⟨r, hr, h⟩
    split at h
    · rename_i v hv
      exact ⟨_, r, v, Prod.ext rfl hr, hv, h⟩
    · cases h
  · rintro ⟨x, r, v, hx, hv, hu⟩
    exact ⟨r, by rw [hx], by simp only [hv, hu]⟩

theorem scanItems_of_skipItems {i : Nat} {s u : List Char} (h : skipItems i s = some u) :
    ∃ b, s = b ++ u ∧ ∀ (u' : List Char) (f : Json → Json),
      scan u' = (f (scan u).1, (scan u).2) → (∀ r, skipBlank u' ≠ ']' :: r) →
        scanItems (b ++ u') = ((scanItems s).1.modify i f, (scanItems s).2) ∧
          ∀ r, skipBlank (b ++ u') ≠ ']' :: r := by
  induction i generalizing s with
  | zero =>
    cases h
    refine ⟨[], rfl, fun u' f hu hopen => ⟨?_, hopen⟩⟩
    rw [List.nil_append, scanItems_eq u', scanItems_eq u, hu, afterItem_eq]
  | succ i ih =>
    obtain ⟨x, r, v, hx, hv, hu⟩ := skipItems_succ_eq_some_iff.mp h
    obtain ⟨b, rfl, hb⟩ := ih hu
    obtain ⟨a, rfl, ha⟩ := scan_append hx
    obtain ⟨bs, rfl, hbs⟩ := exists_blanks_cons hv
    have hfirst (w : List Char) :
        scan (a ++ (bs ++ ',' :: w)) = (x, some (bs ++ ',' :: w)) :=
      ha _ (ends_blanks hbs (ends_cons (by decide)))
    have hitems (w : List Char) :
        scanItems (a ++ (bs ++ ',' :: w)) = (x :: (scanItems w).1, (scanItems w).2) := by
      rw [scanItems_eq, hfirst]
      simp only [afterItem, skipBlank_blanks_cons hbs (c := ',') rfl]
    refine ⟨a ++ (bs ++ ',' :: b), by simp, fun u' f hf hopen => ?_⟩
    simp only [List.append_assoc, List.cons_append]
    refine ⟨?_, fun r => ne_of_value (hfirst _)⟩
    rw [hitems, hitems, (hb u' f hf hopen).1]
    rfl

end Items

section Entries

theorem afterEntry_eq (f : Json → Json) (k : Option String) (x : Json)
    (rest : Option (List Char)) :
    afterEntry (k, f x) rest =
      ((afterEntry (k, x) rest).1.modify 0 fun e => (e.1, f e.2), (afterEntry (k, x) rest).2) := by
  cases rest with
  | none => rfl
  | some r =>
    simp only [afterEntry]
    split <;> rfl

theorem getElem?_afterEntry_zero (e : Option String × Json) (rest : Option (List Char)) :
    (afterEntry e rest).1[0]? = some e := by
  cases rest with
  | none => rfl
  | some r =>
    simp only [afterEntry]
    split <;> rfl

theorem exists_key_of_entryValue? {s v : List Char} (h : entryValue? s = some v) :
    ∃ b k, s = b ++ v ∧ ∀ w, (∀ r, skipBlank (b ++ w) ≠ '\x7d' :: r) ∧
      scanEntries (b ++ w) = afterEntry (k, (scan w).1) (scan w).2 := by
  simp only [entryValue?] at h
  split at h
  · rename_i t ht
    obtain ⟨⟨text, u⟩, hkey, hcolon⟩ := Option.bind_eq_some_iff.mp h
    clear h
    dsimp only at hcolon
    split at hcolon
    · rename_i v' hu
      obtain rfl := Option.some.inj hcolon
      obtain ⟨bs, rfl, hbs⟩ := exists_blanks_cons ht
      obtain ⟨key, rfl, hname⟩ := Quoted.decode?_append hkey
      obtain ⟨gap, rfl, hgap⟩ := exists_blanks_cons hu
      refine ⟨bs ++ '"' :: (key ++ (gap ++ [':'])), text.map String.ofList, by simp, fun w => ?_⟩
      simp only [List.append_assoc, List.cons_append, List.nil_append]
      have hquote := skipBlank_blanks_cons hbs (c := '"') rfl (key ++ (gap ++ ':' :: w))
      refine ⟨by simp [hquote], ?_⟩
      exact scanEntries_eq hquote (hname _) (skipBlank_blanks_cons hgap rfl w)
    · cases hcolon
  · cases h

theorem skipEntries_succ_eq_some_iff {i : Nat} {s u : List Char} :
    skipEntries (i + 1) s = some u ↔
      ∃ w x r v, entryValue? s = some w ∧ scan w = (x, some r) ∧ skipBlank r = ',' :: v ∧
        skipEntries i v = some u := by
  simp only [skipEntries, bind, Option.bind_eq_some_iff]
  constructor
  · rintro ⟨w, hw, r, hr, h⟩
    split at h
    · rename_i v hv
      exact ⟨w, _, r, v, hw, Prod.ext rfl hr, hv, h⟩
    · cases h
  · rintro ⟨w, x, r, v, hw, hx, hv, hu⟩
    exact ⟨w, hw, r, by rw [hx], by simp only [hv, hu]⟩

theorem scanEntries_of_skipEntries {i : Nat} {s u : List Char} (h : skipEntries i s = some u) :
    ∃ b, s = b ++ u ∧ ∀ (u' : List Char) (f : Json → Json),
      scan u' = (f (scan u).1, (scan u).2) →
        scanEntries (b ++ u') =
            ((scanEntries s).1.modify i fun e => (e.1, f e.2), (scanEntries s).2) ∧
          ∀ r, skipBlank (b ++ u') ≠ '\x7d' :: r := by
  induction i generalizing s with
  | zero =>
    obtain ⟨b, k, rfl, hb⟩ := exists_key_of_entryValue? h
    refine ⟨b, rfl, fun u' f hu => ⟨?_, (hb u').1⟩⟩
    rw [(hb u').2, (hb u).2, hu, afterEntry_eq]
  | succ i ih =>
    obtain ⟨w, x, r, v, hw, hx, hv, hu⟩ := skipEntries_succ_eq_some_iff.mp h
    obtain ⟨key, k, rfl, hkey⟩ := exists_key_of_entryValue? hw
    obtain ⟨b, rfl, hb⟩ := ih hu
    obtain ⟨a, rfl, ha⟩ := scan_append hx
    obtain ⟨bs, rfl, hbs⟩ := exists_blanks_cons hv
    have hentries (t : List Char) : scanEntries (key ++ (a ++ (bs ++ ',' :: t))) =
        ((k, x) :: (scanEntries t).1, (scanEntries t).2) := by
      rw [(hkey _).2, ha _ (ends_blanks hbs (ends_cons (by decide)))]
      simp only [afterEntry, skipBlank_blanks_cons hbs (c := ',') rfl]
    refine ⟨key ++ (a ++ (bs ++ ',' :: b)), by simp, fun u' f hf => ?_⟩
    simp only [List.append_assoc, List.cons_append]
    refine ⟨?_, (hkey _).1⟩
    rw [hentries, hentries, (hb u' f hf).1]
    rfl

end Entries

/-- Another value at a place of a text is that value at the same place of what is read. -/
theorem scan_of_seek {p : List Nat} {s t : List Char} (h : seek p s = some t) :
    ∃ b, s = b ++ t ∧ ∀ (t' : List Char) (x : Json),
      scan t' = (x, (scan t).2) → (∀ r, skipBlank t' ≠ ']' :: r) →
        scan (b ++ t') = (put x p (scan s).1, (scan s).2) ∧
          ∀ r, skipBlank (b ++ t') ≠ ']' :: r := by
  induction p generalizing s with
  | nil =>
    cases h
    obtain ⟨bs, hs, hbs⟩ := exists_blanks s
    refine ⟨bs, hs, fun t' x ht hopen => ⟨?_, ?_⟩⟩
    · rw [scan_blanks hbs, ht, scan_skipBlank]
      rfl
    · rwa [skipBlank_blanks hbs]
  | cons i p ih =>
    simp only [seek] at h
    split at h
    · rename_i r hr
      obtain ⟨bs, rfl, hbs⟩ := exists_blanks_cons hr
      split at h
      · cases h
      · rename_i hopen
        obtain ⟨u, hu, ht⟩ := Option.bind_eq_some_iff.mp h
        obtain ⟨a, rfl, ha⟩ := scanItems_of_skipItems hu
        obtain ⟨b, rfl, hb⟩ := ih ht
        refine ⟨bs ++ '[' :: (a ++ b), by simp, fun t' x ht' hfirst => ?_⟩
        obtain ⟨hplace, hinside⟩ := hb t' x ht' hfirst
        obtain ⟨hitems, hnext⟩ := ha (b ++ t') (put x p) hplace hinside
        simp only [List.append_assoc, List.cons_append]
        rw [scan_blanks hbs, scan_blanks hbs, scan_bracket hnext, scan_bracket hopen, hitems,
          skipBlank_blanks hbs]
        exact ⟨rfl, fun r hr => by cases hr⟩
    · rename_i r hr
      obtain ⟨bs, rfl, hbs⟩ := exists_blanks_cons hr
      obtain ⟨u, hu, ht⟩ := Option.bind_eq_some_iff.mp h
      obtain ⟨a, rfl, ha⟩ := scanEntries_of_skipEntries hu
      obtain ⟨b, rfl, hb⟩ := ih ht
      refine ⟨bs ++ '\x7b' :: (a ++ b), by simp, fun t' x ht' hopen => ?_⟩
      obtain ⟨hentries, hnext⟩ := ha (b ++ t') (put x p) (hb t' x ht' hopen).1
      obtain ⟨-, hfirst⟩ := ha (b ++ t) id rfl
      simp only [List.append_assoc, List.cons_append]
      rw [scan_blanks hbs, scan_blanks hbs, scan_brace hnext, scan_brace hfirst, hentries,
        skipBlank_blanks hbs]
      exact ⟨rfl, fun r hr => by cases hr⟩
    · cases h

section Found
variable {s : List Char}

theorem exists_skipItems {i : Nat} {y : Json} (h : (scanItems s).1[i]? = some y)
    (hy : y ≠ .broken) : ∃ u, skipItems i s = some u ∧ (scan u).1 = y := by
  induction i generalizing s with
  | zero =>
    refine ⟨s, rfl, ?_⟩
    rw [scanItems_eq, getElem?_afterItem_zero] at h
    exact Option.some.inj h
  | succ i ih =>
    rw [scanItems_eq] at h
    rcases hs : scan s with ⟨x, _ | r⟩
    · simp [hs, afterItem] at h
    · rw [hs] at h
      simp only [afterItem] at h
      split at h
      · rename_i v hv
        obtain ⟨u, hu, hread⟩ := ih h
        exact ⟨u, skipItems_succ_eq_some_iff.mpr ⟨x, r, v, hs, hv, hu⟩, hread⟩
      · simp at h
      · cases i with
        | zero => exact absurd (Option.some.inj h).symm hy
        | succ i => simp at h

theorem scanEntries_of_entryValue?_eq_none (h : entryValue? s = none) :
    ∃ k, scanEntries s = ([(k, .broken)], none) := by
  simp only [entryValue?] at h
  simp only [scanEntries, entries]
  split
  · rename_i t ht
    simp only [ht] at h
    split
    · exact ⟨none, rfl⟩
    · rename_i text u hkey
      split
      · rename_i v hu
        simp [hkey, hu] at h
      · exact ⟨_, rfl⟩
  · exact ⟨none, rfl⟩

theorem exists_skipEntries {i : Nat} {k : Option String} {y : Json}
    (h : (scanEntries s).1[i]? = some (k, y)) (hy : y ≠ .broken) :
    ∃ u, skipEntries i s = some u ∧ (scan u).1 = y := by
  induction i generalizing s with
  | zero =>
    cases hvalue : entryValue? s with
    | none =>
      obtain ⟨k', hs⟩ := scanEntries_of_entryValue?_eq_none hvalue
      rw [hs] at h
      exact absurd (Prod.mk.inj (Option.some.inj h)).2.symm hy
    | some v =>
      refine ⟨v, hvalue, ?_⟩
      obtain ⟨b, k', rfl, hentries⟩ := exists_key_of_entryValue? hvalue
      rw [(hentries v).2, getElem?_afterEntry_zero] at h
      exact (Prod.mk.inj (Option.some.inj h)).2
  | succ i ih =>
    cases hvalue : entryValue? s with
    | none =>
      obtain ⟨k', hs⟩ := scanEntries_of_entryValue?_eq_none hvalue
      simp [hs] at h
    | some v =>
      obtain ⟨b, k', rfl, hentries⟩ := exists_key_of_entryValue? hvalue
      rw [(hentries v).2] at h
      rcases hv : scan v with ⟨x, _ | r⟩
      · simp [hv, afterEntry] at h
      · rw [hv] at h
        simp only [afterEntry] at h
        split at h
        · rename_i w hw
          obtain ⟨u, hu, hread⟩ := ih h
          exact ⟨u, skipEntries_succ_eq_some_iff.mpr ⟨v, x, r, w, hvalue, hv, hw, hu⟩, hread⟩
        · simp at h
        · cases i with
          | zero => exact absurd (Prod.mk.inj (Option.some.inj h)).2.symm hy
          | succ i => simp at h

inductive Numeric : Json → Prop where
  | int (n : Int) : Numeric (.int n)
  | float (x : Float) : Numeric (.float x)
  | garbled : Numeric .garbled
  | broken : Numeric .broken

theorem numeric_ofDigits (negative : Bool) (whole fraction : List Char) (exponent : Option Int) :
    Numeric (ofDigits negative whole fraction exponent) := by
  unfold ofDigits
  generalize takeDigits 0 whole = taken
  obtain ⟨n, skipped⟩ := taken
  dsimp only
  split
  · exact .int _
  · split
    · exact .int _
    · split
      · exact .float _
      · exact .garbled

theorem numeric_number (s : List Char) : Numeric (number s).1 := by
  unfold number
  split
  dsimp only
  split
  · rename_i hread
    simp only [bind, Option.bind_eq_some_iff, Prod.exists, pure, Option.some.injEq,
      Prod.mk.injEq] at hread
    obtain ⟨whole, _, -, _, -, fraction, _, -, exponent, _, -, rfl, -⟩ := hread
    exact numeric_ofDigits _ whole fraction exponent
  · exact .broken

theorem child?_number (s : List Char) (i : Nat) : child? i (number s).1 = none := by
  have h := numeric_number s
  generalize (number s).1 = x at h
  cases h <;> rfl

theorem child?_string (s : List Char) (i : Nat) : child? i (string s).1 = none := by
  unfold string
  split <;> rfl

theorem exists_of_child?_scan {i : Nat} {y : Json} (h : child? i (scan s).1 = some y) :
    (∃ r, skipBlank s = '[' :: r ∧ (∀ t, skipBlank r ≠ ']' :: t) ∧ (scanItems r).1[i]? = some y) ∨
      ∃ r k, skipBlank s = '\x7b' :: r ∧ (scanEntries r).1[i]? = some (k, y) := by
  simp only [scan, value] at h
  split at h
  case h_4 r _ =>
    rw [child?_string] at h
    cases h
  case h_5 r hr =>
    split at h
    · cases h
    · rename_i hopen
      have hlt := length_lt_of_skipBlank hr
      rw [items_skipBlank, items_eq_scanItems (by omega)] at h
      exact .inl ⟨r, hr, hopen, h⟩
  case h_6 r hr =>
    split at h
    · cases h
    · have hlt := length_lt_of_skipBlank hr
      rw [entries_skipBlank, entries_eq_scanEntries (by omega)] at h
      obtain ⟨⟨k, x⟩, hentry, rfl⟩ := Option.map_eq_some_iff.mp h
      exact .inr ⟨r, k, hr, hentry⟩
  case h_7 =>
    rw [child?_number] at h
    cases h
  all_goals cases h

end Found

theorem exists_seek_of_at? {p : List Nat} {s : List Char} {x : Json}
    (h : at? p (scan s).1 = some x) (hx : x ≠ .broken) :
    ∃ t, seek p s = some t ∧ (scan t).1 = x := by
  induction p generalizing s with
  | nil =>
    cases h
    exact ⟨_, rfl, by rw [scan_skipBlank]⟩
  | cons i p ih =>
    obtain ⟨y, hchild, hplace⟩ := Option.bind_eq_some_iff.mp h
    have hy : y ≠ .broken := by
      rintro rfl
      cases p with
      | nil => exact hx (Option.some.inj hplace).symm
      | cons => cases hplace
    obtain ⟨r, hr, hopen, hitem⟩ | ⟨r, k, hr, hentry⟩ := exists_of_child?_scan hchild
    · obtain ⟨u, hu, rfl⟩ := exists_skipItems hitem hy
      obtain ⟨t, ht, hfound⟩ := ih hplace
      refine ⟨t, ?_, hfound⟩
      simp only [seek, hr, hu]
      exact ht
    · obtain ⟨u, hu, rfl⟩ := exists_skipEntries hentry hy
      obtain ⟨t, ht, hfound⟩ := ih hplace
      refine ⟨t, ?_, hfound⟩
      simp only [seek, hr, hu]
      exact ht

section Literals

def Spells (text : List Char) (w : String) : Prop :=
  ∃ body, text = '"' :: body ∧ ∀ r, Quoted.decode? (body ++ r) = some (some w.toList, r)

theorem spells_encode (w : String) : Spells (Quoted.encode w.toList) w := by
  refine ⟨w.toList.flatMap Quoted.escape ++ ['"'], rfl, fun r => ?_⟩
  rw [List.append_assoc]
  exact Quoted.decode?_flatMap_escape w.toList r

theorem Spells.scan_eq {text : List Char} {w : String} (h : Spells text w) (r : List Char) :
    scan (text ++ r) = (.str w, some r) := by
  obtain ⟨body, rfl, hbody⟩ := h
  rw [List.cons_append, scan_quote, string, hbody]
  simp

theorem exists_spells_of_scan {s : List Char} {w : String} (h : (scan s).1 = .str w) :
    ∃ text r, skipBlank s = text ++ r ∧ Spells text w ∧ (scan s).2 = some r := by
  have hfirst : ∃ t, skipBlank s = '"' :: t := by
    simp only [scan, value] at h
    split at h
    case h_4 t ht => exact ⟨t, ht⟩
    case h_5 | h_6 => split at h <;> cases h
    case h_7 =>
      have hnumeric := numeric_number (skipBlank s)
      rw [h] at hnumeric
      cases hnumeric
    all_goals cases h
  obtain ⟨t, ht⟩ := hfirst
  rw [← scan_skipBlank, ht, scan_quote] at h
  rw [← scan_skipBlank, ht, scan_quote]
  unfold string at h ⊢
  split at h
  · rename_i u r hu
    obtain ⟨body, rfl, hbody⟩ := Quoted.decode?_append hu
    refine ⟨'"' :: body, r, rfl, ⟨body, rfl, fun r' => ?_⟩, rfl⟩
    rw [hbody, ← Json.str.inj h, String.toList_ofList]
  · cases h
  · cases h

theorem skipBlank_of_seek {p : List Nat} {s t : List Char} (h : seek p s = some t) :
    skipBlank t = t := by
  induction p generalizing s with
  | nil =>
    cases h
    exact skipBlank_skipBlank s
  | cons i p ih =>
    simp only [seek] at h
    split at h
    · split at h
      · cases h
      · obtain ⟨u, -, ht⟩ := Option.bind_eq_some_iff.mp h
        exact ih ht
    · obtain ⟨u, -, ht⟩ := Option.bind_eq_some_iff.mp h
      exact ih ht
    · cases h

/-- A string at a place of a text is spelled there. Another spelling in its place is read as the
string that it spells, with all around it as it was. -/
theorem exists_cut?_of_at? {p : List Nat} {s : List Char} {v : String}
    (h : at? p (scan s).1 = some (.str v)) :
    ∃ before text after, cut? p s = some (before, text, after) ∧ s = before ++ (text ++ after) ∧
      Spells text v ∧ ∀ text' w, Spells text' w →
        scan (before ++ (text' ++ after)) = (put (.str w) p (scan s).1, (scan s).2) := by
  obtain ⟨t, ht, hread⟩ := exists_seek_of_at? h (by simp)
  obtain ⟨before, rfl, hbefore⟩ := scan_of_seek ht
  obtain ⟨text, after, hsplit, htext, hafter⟩ := exists_spells_of_scan hread
  rw [skipBlank_of_seek ht] at hsplit
  refine ⟨before, text, after, ?_, by rw [hsplit], htext, fun text' w hw => ?_⟩
  · simp only [cut?, ht, bind, Option.bind, hafter, pure]
    simp [hsplit]
  · refine (hbefore (text' ++ after) (.str w) ?_ ?_).1
    · rw [hw.scan_eq, hafter]
    · obtain ⟨body, rfl, -⟩ := hw
      intro r hr
      cases hr

end Literals
end Storyboard.Json
