import Mathlib.Data.List.Nodup
import Storyboard.Proofs.Json.Codec

set_option autoImplicit false

/-!
Records as they are given. An object gives a record all values that have the key of a field, an
array the item in the place of the field. The record is read if each field can do with what it is
given, in whatever order an object gives it.
-/

namespace Storyboard
variable {β γ σ : Type} {o : Origin}

namespace Json
variable {d : Nat} {j x : Json} {key : String} {keys : List String}

mutual
theorem whole_of_keepable : ∀ (d : Nat) (j : Json), j.keepable d = true → j.whole = true
  | _, .null, _ | _, .bool _, _ | _, .int _, _ | _, .float _, _ | _, .str _, _ => rfl
  | d + 1, .arr xs, h => wholeItems_of_keepable d xs h
  | d + 1, .obj es, h => wholeEntries_of_keepable d es h

theorem wholeItems_of_keepable :
    ∀ (d : Nat) (xs : List Json), keepableItems d xs = true → wholeItems xs = true
  | _, [], _ => rfl
  | d, x :: xs, h => by
    simp only [keepableItems, wholeItems, Bool.and_eq_true] at h ⊢
    exact ⟨whole_of_keepable d x h.1, wholeItems_of_keepable d xs h.2⟩

theorem wholeEntries_of_keepable :
    ∀ (d : Nat) (es : List (Option String × Json)), keepableEntries d es = true →
      wholeEntries es = true
  | _, [], _ => rfl
  | d, (k, x) :: es, h => by
    simp only [keepableEntries, wholeEntries, Bool.and_eq_true] at h ⊢
    exact ⟨whole_of_keepable d x h.1.2, wholeEntries_of_keepable d es h.2⟩
end

def under (key : String) (es : List (Option String × Json)) : List Json :=
  (es.filter fun e => e.1 == some key).map Prod.snd

/-- What is given under each of the keys: by an object all values that have the key, by an array the
item in its place. Items beyond the keys are not given, and neither is anything else. -/
def given? (keys : List String) : Json → Option (List (List Json))
  | .obj es => some (keys.map fun key => under key es)
  | .arr xs =>
    if xs.length ≤ keys.length then some ((List.range keys.length).map fun i => xs[i]?.toList)
    else none
  | _ => none

@[simp] theorem under_nil : under key [] = [] := rfl

@[simp] theorem under_cons_self (es : List (Option String × Json)) :
    under key ((some key, x) :: es) = x :: under key es := by
  simp [under]

theorem under_cons_of_ne {k : String} (h : key ≠ k) (es : List (Option String × Json)) :
    under key ((some k, x) :: es) = under key es := by
  simp [under, h.symm]

theorem under_of_notMem {key : String} {es : List (String × Json)}
    (h : key ∉ es.map Prod.fst) : under key (named es) = [] := by
  simp only [under, named, List.map_eq_nil_iff, List.filter_eq_nil_iff, List.mem_map]
  rintro _ ⟨e, he, rfl⟩ heq
  exact h (List.mem_map.mpr ⟨e, he, by simpa using heq⟩)

theorem keepable_of_given? {vss : List (List Json)} (hj : j.keepable d = true)
    (h : j.given? keys = some vss) : ∃ n, ∀ vs ∈ vss, ∀ x ∈ vs, x.keepable n = true := by
  cases j with
  | obj es =>
    cases d with
    | zero => cases hj
    | succ d =>
      cases h
      simp only [keepable, keepableEntries_eq_all, List.all_eq_true, Bool.and_eq_true] at hj
      refine ⟨d, fun vs hvs x hx => ?_⟩
      obtain ⟨key, -, rfl⟩ := List.mem_map.mp hvs
      obtain ⟨e, he, rfl⟩ := List.mem_map.mp hx
      exact (hj e (List.mem_filter.mp he).1).2
  | arr xs =>
    cases d with
    | zero => cases hj
    | succ d =>
      simp only [keepable, keepableItems_eq_all, List.all_eq_true] at hj
      simp only [given?] at h
      split at h
      · cases h
        refine ⟨d, fun vs hvs x hx => ?_⟩
        obtain ⟨i, -, rfl⟩ := List.mem_map.mp hvs
        exact hj x (List.mem_of_getElem? (Option.mem_toList.mp hx))
      · cases h
  | _ => cases h

end Json

/-- What a field makes of a record. A field that is not needed may be left out. -/
inductive Field.Takes (f : Field σ) (o : Origin) : List Json → σ → σ → Prop where
  | absent (h : f.needed = false) (s : σ) : f.Takes o [] s s
  | given {x : Json} {s t : σ} (h : f.read o x s = .ok t) : f.Takes o [x] s t

/-- What the fields make of a record, each with what it is given. -/
inductive Gathers (o : Origin) : List (Field σ) → List (List Json) → σ → σ → Prop where
  | nil (s : σ) : Gathers o [] [] s s
  | cons {f : Field σ} {fs : List (Field σ)} {vs : List Json} {vss : List (List Json)} {s t u : σ}
    (h : f.Takes o vs s t) (rest : Gathers o fs vss t u) : Gathers o (f :: fs) (vs :: vss) s u

def Field.Commutes (f g : Field σ) : Prop :=
  ∀ o x y s u, (∃ t, f.read o x s = .ok t ∧ g.read o y t = .ok u) ↔
    ∃ t, g.read o y s = .ok t ∧ f.read o x t = .ok u

/-- No two fields have one key, and none minds the order they are read in. -/
structure Record.Lawful (r : Record σ) : Prop where
  nodup : (r.fields.map Field.key).Nodup
  commutes : r.fields.Pairwise Field.Commutes

/-- What is read does not depend on the record it is set in. -/
def Field.Sets (f : Field σ) (read : Origin → Json → Except Misread β) (set : β → σ → σ) : Prop :=
  ∀ o x s, f.read o x s = (read o x).map (set · s)

namespace Field
variable {f g : Field σ} {key : String} {c : Codec β} {s t u : σ} {vs ws : List Json}

theorem sets_required (key : String) (c : Codec β) (get : σ → β) (set : β → σ → σ) :
    (required key c get set).Sets c.read set := by
  intro o x s
  simp only [required]
  cases c.read o x <;> rfl

theorem sets_defaulted (key : String) (c : Codec β) (get : σ → β) (set : β → σ → σ) :
    (defaulted key c get set).Sets c.read set :=
  sets_required key c get set

def readNullable (c : Codec β) : Origin → Json → Except Misread (Option β)
  | _, .null => .ok none
  | o, j => (c.read o j).map some

theorem sets_optional (key : String) (c : Codec β) (get : σ → Option β)
    (set : Option β → σ → σ) : (optional key c get set).Sets (readNullable c) set := by
  intro o x s
  cases x with
  | null => rfl
  | _ =>
    simp only [optional, readNullable]
    cases c.read o _ <;> rfl

theorem Commutes.of_sets {a : Origin → Json → Except Misread β}
    {b : Origin → Json → Except Misread γ} {set : β → σ → σ} {set' : γ → σ → σ}
    (hf : f.Sets a set) (hg : g.Sets b set') (h : ∀ v w s, set' w (set v s) = set v (set' w s)) :
    f.Commutes g := by
  intro o x y s u
  simp only [hf o x, hg o y, map_eq_ok_iff]
  constructor
  · rintro ⟨_, ⟨v, hv, rfl⟩, w, hw, rfl⟩
    exact ⟨_, ⟨w, hw, rfl⟩, v, hv, (h v w s).symm⟩
  · rintro ⟨_, ⟨w, hw, rfl⟩, v, hv, rfl⟩
    exact ⟨_, ⟨v, hv, rfl⟩, w, hw, h v w s⟩

namespace Commutes
variable {key' : String} {c' : Codec γ}

@[simp] theorem required {get : σ → β} {set : β → σ → σ} {get' : σ → γ} {set' : γ → σ → σ}
    (h : ∀ v w s, set' w (set v s) = set v (set' w s)) :
    (Field.required key c get set).Commutes (.required key' c' get' set') :=
  .of_sets (sets_required key c get set) (sets_required key' c' get' set') h

@[simp] theorem defaulted {get : σ → β} {set : β → σ → σ} {get' : σ → γ} {set' : γ → σ → σ}
    (h : ∀ v w s, set' w (set v s) = set v (set' w s)) :
    (Field.defaulted key c get set).Commutes (.defaulted key' c' get' set') :=
  .of_sets (sets_defaulted key c get set) (sets_defaulted key' c' get' set') h

@[simp] theorem defaulted_optional {get : σ → β} {set : β → σ → σ} {get' : σ → Option γ}
    {set' : Option γ → σ → σ} (h : ∀ v w s, set' w (set v s) = set v (set' w s)) :
    (Field.defaulted key c get set).Commutes (.optional key' c' get' set') :=
  .of_sets (sets_defaulted key c get set) (sets_optional key' c' get' set') h

@[simp] theorem optional {get : σ → Option β} {set : Option β → σ → σ} {get' : σ → Option γ}
    {set' : Option γ → σ → σ} (h : ∀ v w s, set' w (set v s) = set v (set' w s)) :
    (Field.optional key c get set).Commutes (.optional key' c' get' set') :=
  .of_sets (sets_optional key c get set) (sets_optional key' c' get' set') h

theorem symm (h : f.Commutes g) : g.Commutes f := fun o x y s u => (h o y x s u).symm

theorem exists_takes (h : f.Commutes g) (hf : f.Takes o vs s t) (hg : g.Takes o ws t u) :
    ∃ t, g.Takes o ws s t ∧ f.Takes o vs t u := by
  cases hf with
  | absent hf => exact ⟨u, hg, .absent hf u⟩
  | given hf =>
    cases hg with
    | absent hg => exact ⟨s, .absent hg s, .given hf⟩
    | given hg =>
      obtain ⟨t, hg, hf⟩ := (h o _ _ s u).mp ⟨t, hf, hg⟩
      exact ⟨t, .given hg, .given hf⟩

end Commutes

theorem takes_nil_iff : f.Takes o [] s t ↔ f.needed = false ∧ s = t := by
  constructor
  · rintro ⟨h⟩
    exact ⟨h, rfl⟩
  · rintro ⟨h, rfl⟩
    exact .absent h s

theorem takes_cons_iff {x : Json} :
    f.Takes o (x :: vs) s t ↔ vs = [] ∧ f.read o x s = .ok t := by
  constructor
  · intro h
    cases h with
    | given h => exact ⟨rfl, h⟩
  · rintro ⟨rfl, h⟩
    exact .given h

theorem Sets.takes_singleton_iff {read : Origin → Json → Except Misread β} {set : β → σ → σ}
    (hf : f.Sets read set) {x : Json} :
    f.Takes o [x] s t ↔ ∃ b, read o x = .ok b ∧ set b s = t := by
  rw [takes_cons_iff, hf o x s, map_eq_ok_iff]
  exact and_iff_right rfl

end Field

namespace Gathers
variable {f : Field σ} {before fs : List (Field σ)} {vs : List Json} {vss : List (List Json)}
  {s t u : σ}

theorem nil_iff : Gathers o ([] : List (Field σ)) vss s t ↔ vss = [] ∧ s = t := by
  constructor
  · rintro ⟨⟩
    exact ⟨rfl, rfl⟩
  · rintro ⟨rfl, rfl⟩
    exact .nil s

theorem cons_iff : Gathers o (f :: fs) (vs :: vss) s u ↔
    ∃ t, f.Takes o vs s t ∧ Gathers o fs vss t u := by
  constructor
  · intro h
    cases h with
    | cons h rest => exact ⟨_, h, rest⟩
  · rintro ⟨t, h, rest⟩
    exact .cons h rest

theorem append_cons_iff (h : ∀ g ∈ before, g.Commutes f) {give : Field σ → List Json} :
    Gathers o (before ++ f :: fs) ((before ++ f :: fs).map give) s u ↔
      ∃ t, f.Takes o (give f) s t ∧ Gathers o (before ++ fs) ((before ++ fs).map give) t u := by
  induction before generalizing s with
  | nil => exact cons_iff
  | cons g before ih =>
    rw [List.forall_mem_cons] at h
    simp only [List.cons_append, List.map_cons, cons_iff, ih h.2]
    constructor
    · rintro ⟨t, hg, t', hf, hrest⟩
      obtain ⟨t, hf, hg⟩ := h.1.exists_takes hg hf
      exact ⟨t, hf, t', hg, hrest⟩
    · rintro ⟨t, hf, t', hg, hrest⟩
      obtain ⟨t, hg, hf⟩ := h.1.symm.exists_takes hf hg
      exact ⟨t, hg, t', hf, hrest⟩

theorem nothing_iff : Gathers o fs (fs.map fun _ => []) s t ↔
    (∀ f ∈ fs, f.needed = false) ∧ s = t := by
  induction fs generalizing s with
  | nil => simp [nil_iff]
  | cons f fs ih =>
    simp only [List.map_cons, cons_iff, Field.takes_nil_iff, ih, List.forall_mem_cons]
    constructor
    · rintro ⟨_, ⟨hf, rfl⟩, hfs, rfl⟩
      exact ⟨⟨hf, hfs⟩, rfl⟩
    · rintro ⟨⟨hf, hfs⟩, rfl⟩
      exact ⟨s, ⟨hf, rfl⟩, hfs, rfl⟩

end Gathers

namespace Record
open Json
variable {r : Record σ} {s t : σ} {d : Nat}

theorem under_filterMap_write {fs : List (Field σ)} (hkeys : (fs.map Field.key).Nodup)
    {f : Field σ} (hf : f ∈ fs) (s : σ) :
    under f.key (named (fs.filterMap fun g => (g.write s).map (g.key, ·))) =
      (f.write s).toList := by
  induction fs with
  | nil => simp at hf
  | cons g fs ih =>
    simp only [List.map_cons, List.nodup_cons] at hkeys
    rcases List.mem_cons.mp hf with rfl | hf
    · have hrest : f.key ∉ (fs.filterMap fun g => (g.write s).map (g.key, ·)).map Prod.fst := by
        intro hmem
        obtain ⟨e, he, hkey⟩ := List.mem_map.mp hmem
        obtain ⟨g, hg, hwrite⟩ := List.mem_filterMap.mp he
        obtain ⟨j, -, rfl⟩ := Option.map_eq_some_iff.mp hwrite
        exact hkeys.1 (hkey ▸ List.mem_map_of_mem hg)
      cases hw : f.write s with
      | none => simpa [hw] using under_of_notMem hrest
      | some j =>
        rw [List.filterMap_cons_some (by rw [hw]; rfl)]
        exact (under_cons_self _).trans (congrArg (j :: ·) (under_of_notMem hrest))
    · have hne : f.key ≠ g.key := fun h => hkeys.1 (h ▸ List.mem_map_of_mem hf)
      cases hw : g.write s with
      | none => simpa [hw] using ih hkeys.2 hf
      | some j =>
        rw [List.filterMap_cons_some (by rw [hw]; rfl)]
        exact (under_cons_of_ne hne _).trans (ih hkeys.2 hf)


theorem exists_filter_eq {fs : List (Field σ)} (hkeys : (fs.map Field.key).Nodup) {f : Field σ}
    (hf : f ∈ fs) : ∃ before after, fs = before ++ f :: after ∧
      fs.filter (fun g => g.key != f.key) = before ++ after := by
  obtain ⟨before, after, rfl⟩ := List.append_of_mem hf
  have hothers : ∀ g ∈ before ++ after, (g.key != f.key) = true := by
    rw [List.map_append, List.map_cons, List.nodup_middle, List.nodup_cons,
      ← List.map_append] at hkeys
    exact fun g hg => bne_iff_ne.mpr fun heq => hkeys.1 (heq ▸ List.mem_map_of_mem hg)
  refine ⟨before, after, rfl, ?_⟩
  rw [List.filter_append, List.filter_cons_of_neg (by simp), ← List.filter_append]
  exact List.filter_eq_self.mpr hothers

def unseen (r : Record σ) (seen : List String) : List (Field σ) :=
  r.fields.filter fun f => !seen.contains f.key

theorem unseen_cons (k : String) (seen : List String) :
    r.unseen (k :: seen) = (r.unseen seen).filter fun f => f.key != k := by
  simp only [unseen, List.filter_filter]
  refine List.filter_congr fun f _ => ?_
  by_cases hk : f.key = k <;> simp [hk]

theorem readEntries_nil_eq_ok_iff {seen : List String} :
    r.readEntries o [] seen s = .ok t ↔ (∀ f ∈ r.unseen seen, f.needed = false) ∧ s = t := by
  have hneeded : (∀ f ∈ r.unseen seen, f.needed = false) ↔
      r.fields.find? (fun f => f.needed && !seen.contains f.key) = none := by
    simp only [unseen, List.mem_filter, List.find?_eq_none]
    grind
  rw [hneeded, readEntries]
  cases r.fields.find? fun f => f.needed && !seen.contains f.key <;> simp

/-- Of the fields that are left, the one whose value comes first in the document may as well be read
first. -/
theorem gathers_unseen_iff (hr : r.Lawful) {f : Field σ} (hf : f ∈ r.fields) {seen : List String}
    (hseen : f.key ∉ seen) {x : Json} {es : List (Option String × Json)} :
    Gathers o (r.unseen seen)
        ((r.unseen seen).map fun g => under g.key ((some f.key, x) :: es)) s t ↔
      under f.key es = [] ∧ ∃ u, f.read o x s = .ok u ∧
        Gathers o (r.unseen (f.key :: seen))
          ((r.unseen (f.key :: seen)).map fun g => under g.key es) u t := by
  have hmem : f ∈ r.unseen seen := List.mem_filter.mpr ⟨hf, by simpa using hseen⟩
  have hkeys : ((r.unseen seen).map Field.key).Nodup :=
    hr.nodup.sublist (List.filter_sublist.map _)
  have hcommutes : (r.unseen seen).Pairwise Field.Commutes := hr.commutes.filter _
  obtain ⟨before, after, hsplit, hrest⟩ := exists_filter_eq hkeys hmem
  rw [← unseen_cons] at hrest
  have hothers : ∀ g ∈ before ++ after, under g.key ((some f.key, x) :: es) = under g.key es := by
    intro g hg
    rw [← hrest, unseen_cons] at hg
    exact under_cons_of_ne (bne_iff_ne.mp (List.mem_filter.mp hg).2) es
  rw [hsplit, List.pairwise_append] at hcommutes
  rw [hrest, hsplit, Gathers.append_cons_iff fun g hg => hcommutes.2.2 g hg f List.mem_cons_self,
    under_cons_self, List.map_congr_left hothers]
  simp only [Field.takes_cons_iff, and_assoc, exists_and_left]

theorem forall_seen_cons_iff {f : Field σ} (hf : f ∈ r.fields) {seen : List String}
    (hseen : f.key ∉ seen) {x : Json} {es : List (Option String × Json)} :
    (∀ g ∈ r.fields, g.key ∈ f.key :: seen → under g.key es = []) ↔ under f.key es = [] ∧
      ∀ g ∈ r.fields, g.key ∈ seen → under g.key ((some f.key, x) :: es) = [] := by
  have hother : ∀ g : Field σ, g.key ∈ seen →
      under g.key ((some f.key, x) :: es) = under g.key es :=
    fun g hg => under_cons_of_ne (ne_of_mem_of_not_mem hg hseen) es
  constructor
  · intro h
    refine ⟨h f hf List.mem_cons_self, fun g hg hk => ?_⟩
    exact (hother g hk).trans (h g hg (List.mem_cons_of_mem f.key hk))
  · rintro ⟨hnil, h⟩ g hg hk
    rcases List.mem_cons.mp hk with heq | hk
    · exact heq ▸ hnil
    · exact (hother g hk).symm.trans (h g hg hk)

/-- The entries that are left give the fields that are left what they take, and nothing more to
those that were read. -/
theorem readEntries_eq_ok_iff (hr : r.Lawful) {es : List (Option String × Json)}
    (hes : ∀ e ∈ es, e.1.isSome = true ∧ e.2.whole = true) {seen : List String} :
    r.readEntries o es seen s = .ok t ↔
      (∀ f ∈ r.fields, f.key ∈ seen → under f.key es = []) ∧
        Gathers o (r.unseen seen) ((r.unseen seen).map fun f => under f.key es) s t := by
  induction es generalizing seen s with
  | nil =>
    simp only [readEntries_nil_eq_ok_iff, under_nil, implies_true, true_and, Gathers.nothing_iff]
  | cons e es ih =>
    rw [List.forall_mem_cons] at hes
    obtain ⟨k, x⟩ := e
    obtain ⟨k, rfl⟩ := Option.isSome_iff_exists.mp hes.1.1
    rw [readEntries_cons_eq_ok_iff]
    by_cases hk : k ∈ r.fields.map Field.key
    · obtain ⟨f, hf, rfl⟩ := List.mem_map.mp hk
      simp only [find?_of_nodup hr.nodup hf, reduceCtorEq, false_and, false_or,
        Option.some.injEq, exists_and_left, exists_eq_left', ih hes.2]
      by_cases hseen : f.key ∈ seen
      · refine iff_of_false (fun h => h.1 hseen) fun h => ?_
        simpa using h.1 f hf hseen
      · rw [forall_seen_cons_iff hf hseen, gathers_unseen_iff hr hf hseen]
        constructor
        · rintro ⟨-, u, hu, ⟨hnil, h⟩, hrest⟩
          exact ⟨h, hnil, u, hu, hrest⟩
        · rintro ⟨h, hnil, u, hu, hrest⟩
          exact ⟨hseen, u, hu, ⟨hnil, h⟩, hrest⟩
    · have hsame : ∀ f ∈ r.fields, under f.key ((some k, x) :: es) = under f.key es := by
        refine fun f hf => under_cons_of_ne ?_ es
        rintro rfl
        exact hk (List.mem_map_of_mem hf)
      have hleft : ∀ f ∈ r.unseen seen, under f.key ((some k, x) :: es) = under f.key es :=
        fun f hf => hsame f (List.mem_of_mem_filter hf)
      simp only [find?_eq_none_of_unknown hk, true_and, reduceCtorEq, false_and, exists_false,
        or_false, hes.1.2, ih hes.2]
      rw [List.map_congr_left hleft]
      exact and_congr_left fun _ => forall₂_congr fun f hf => by rw [hsame f hf]

theorem readItems_eq_ok_iff {fs : List (Field σ)} {i : Nat} {xs : List Json} :
    r.readItems o fs i xs s = .ok t ↔ xs.length ≤ fs.length ∧
      Gathers o fs ((List.range fs.length).map fun m => xs[m]?.toList) s t := by
  induction fs generalizing i xs s with
  | nil =>
    cases xs with
    | nil => simp [readItems, Gathers.nil_iff]
    | cons x xs => simp [readItems]
  | cons f fs ih =>
    simp only [List.length_cons, List.range_succ_eq_map, List.map_cons, List.map_map,
      Function.comp_def, Gathers.cons_iff]
    cases xs with
    | nil =>
      have hrest := @ih s (i + 1) []
      simp only [List.length_nil, Nat.zero_le, true_and, List.getElem?_nil, Option.toList_none]
        at hrest ⊢
      simp only [readItems, Field.takes_nil_iff]
      by_cases hneeded : f.needed = true
      · simp [hneeded]
      · simp [hneeded, hrest]
    | cons x xs =>
      simp only [readItems, bind_eq_ok_iff, ih, List.length_cons, Nat.add_le_add_iff_right,
        List.getElem?_cons_zero, List.getElem?_cons_succ, Option.toList_some,
        Field.takes_cons_iff, true_and]
      exact ⟨fun ⟨u, hu, hle, h⟩ => ⟨hle, u, hu, h⟩, fun ⟨hle, u, hu, h⟩ => ⟨u, hu, hle, h⟩⟩

theorem read_eq_ok_iff (hr : r.Lawful) {j : Json} (hj : j.keepable d = true) :
    r.codec.read o j = .ok t ↔ ∃ vss, j.given? (r.fields.map Field.key) = some vss ∧
      Gathers o r.fields vss r.blank t := by
  cases j with
  | obj es =>
    cases d with
    | zero => cases hj
    | succ d =>
      simp only [keepable, keepableEntries_eq_all, List.all_eq_true, Bool.and_eq_true] at hj
      have hes : ∀ e ∈ es, e.1.isSome = true ∧ e.2.whole = true :=
        fun e he => ⟨(hj e he).1, whole_of_keepable d e.2 (hj e he).2⟩
      have hall : r.unseen [] = r.fields := by simp [unseen]
      change r.readEntries o es [] r.blank = .ok t ↔ _
      rw [readEntries_eq_ok_iff hr hes, hall]
      simp [given?, Function.comp_def]
  | arr xs =>
    change r.readItems o r.fields 0 xs r.blank = .ok t ↔ _
    rw [readItems_eq_ok_iff]
    by_cases hle : xs.length ≤ r.fields.length <;> simp [given?, hle]
  | _ => simp [codec, given?]

end Record

/-- What may be absent, or null, which is the same. -/
inductive Json.Optionally (A : Json → β → Prop) : List Json → Option β → Prop where
  | absent : Optionally A [] none
  | null : Optionally A [.null] none
  | given {x : Json} {b : β} (h : A x b) : Optionally A [x] (some b)

theorem Json.Optionally.imp {A B : Json → β → Prop} {vs : List Json} {b : Option β}
    (h : Optionally A vs b) (hAB : ∀ x ∈ vs, ∀ b, A x b → B x b) : Optionally B vs b := by
  cases h with
  | absent => exact .absent
  | null => exact .null
  | given h => exact .given (hAB _ List.mem_cons_self _ h)

theorem Json.optionally_congr {A B : Json → β → Prop} {vs : List Json} {b : Option β}
    (h : ∀ x ∈ vs, ∀ b, A x b ↔ B x b) : Optionally A vs b ↔ Optionally B vs b :=
  ⟨fun hA => hA.imp fun x hx b => (h x hx b).mp, fun hB => hB.imp fun x hx b => (h x hx b).mpr⟩

namespace Gathers
variable {fs : List (Field σ)} {vss : List (List Json)} {s t : σ} {key : String} {c : Codec β}

theorem required_iff {get : σ → β} {set : β → σ → σ} :
    Gathers o (.required key c get set :: fs) vss s t ↔ ∃ x b rest, vss = [x] :: rest ∧
      c.read o x = .ok b ∧ Gathers o fs rest (set b s) t := by
  have hsets := Field.sets_required key c get set
  constructor
  · rintro (_ | ⟨⟨h⟩ | h, hrest⟩)
    · cases h
    · obtain ⟨b, hb, rfl⟩ := hsets.takes_singleton_iff.mp (.given h)
      exact ⟨_, b, _, rfl, hb, hrest⟩
  · rintro ⟨x, b, rest, rfl, hb, hrest⟩
    exact .cons (hsets.takes_singleton_iff.mpr ⟨b, hb, rfl⟩) hrest

theorem defaulted_iff {get : σ → β} {set : β → σ → σ} {blank : β} (hblank : set blank s = s) :
    Gathers o (.defaulted key c get set :: fs) vss s t ↔ ∃ vs b rest, vss = vs :: rest ∧
      (vs = [] ∧ b = blank ∨ ∃ x, vs = [x] ∧ c.read o x = .ok b) ∧
      Gathers o fs rest (set b s) t := by
  have hsets := Field.sets_defaulted key c get set
  constructor
  · rintro (_ | ⟨⟨-⟩ | h, hrest⟩)
    · exact ⟨[], blank, _, rfl, .inl ⟨rfl, rfl⟩, hblank.symm ▸ hrest⟩
    · obtain ⟨b, hb, rfl⟩ := hsets.takes_singleton_iff.mp (.given h)
      exact ⟨_, b, _, rfl, .inr ⟨_, rfl, hb⟩, hrest⟩
  · rintro ⟨vs, b, rest, rfl, ⟨rfl, rfl⟩ | ⟨x, rfl, hb⟩, hrest⟩
    · exact .cons (.absent rfl s) (hblank ▸ hrest)
    · exact .cons (hsets.takes_singleton_iff.mpr ⟨b, hb, rfl⟩) hrest

theorem optional_iff {get : σ → Option β} {set : Option β → σ → σ} (hblank : set none s = s)
    (hnull : ∀ b, c.read o .null ≠ .ok b) :
    Gathers o (.optional key c get set :: fs) vss s t ↔ ∃ vs b rest, vss = vs :: rest ∧
      Json.Optionally (fun x b => c.read o x = .ok b) vs b ∧ Gathers o fs rest (set b s) t := by
  have hsets := Field.sets_optional key c get set
  constructor
  · rintro (_ | ⟨⟨-⟩ | h, hrest⟩)
    · exact ⟨[], none, _, rfl, .absent, hblank.symm ▸ hrest⟩
    · obtain ⟨b, hread, rfl⟩ := hsets.takes_singleton_iff.mp (.given h)
      unfold Field.readNullable at hread
      split at hread
      · cases hread
        exact ⟨_, none, _, rfl, .null, hrest⟩
      · obtain ⟨b, hb, rfl⟩ := map_eq_ok_iff.mp hread
        exact ⟨_, some b, _, rfl, .given hb, hrest⟩
  · rintro ⟨vs, b, rest, rfl, hvs, hrest⟩
    cases hvs with
    | absent => exact .cons (.absent rfl s) (hblank ▸ hrest)
    | null => exact .cons (.given rfl) hrest
    | @given x b hb =>
      have hread : Field.readNullable c o x = .ok (some b) := by
        unfold Field.readNullable
        split
        · exact absurd hb (hnull b)
        · exact map_eq_ok_iff.mpr ⟨b, hb, rfl⟩
      exact .cons (hsets.takes_singleton_iff.mpr ⟨_, hread, rfl⟩) hrest

end Gathers

theorem Record.read_pair_eq_ok_iff {r : Record σ} {t : σ} {key key' : String} {c : Codec β}
    {c' : Codec γ} {get : σ → β} {set : β → σ → σ} {get' : σ → γ} {set' : γ → σ → σ}
    (hfields : r.fields = [.required key c get set, .required key' c' get' set'])
    (hkeys : key ≠ key') (hset : ∀ a b s, set' b (set a s) = set a (set' b s))
    (hget : ∀ a b s, get (set' b (set a s)) = a ∧ get' (set' b (set a s)) = b)
    (hself : ∀ s u, set' (get' u) (set (get u) s) = u) {d : Nat} {j : Json}
    (hj : j.keepable d = true) :
    r.codec.read o j = .ok t ↔ ∃ x y, j.given? [key, key'] = some [[x], [y]] ∧
      c.read o x = .ok (get t) ∧ c'.read o y = .ok (get' t) := by
  have hlawful : r.Lawful := by
    refine ⟨by simpa [hfields, Field.required] using hkeys, ?_⟩
    rw [hfields, List.pairwise_pair]
    exact .required hset
  rw [read_eq_ok_iff hlawful hj, hfields]
  simp only [Gathers.required_iff, Gathers.nil_iff]
  constructor
  · rintro ⟨_, hgiven, x, a, _, rfl, ha, y, b, _, rfl, hb, rfl, rfl⟩
    obtain ⟨hfirst, hsecond⟩ := hget a b r.blank
    exact ⟨x, y, hgiven, hfirst.symm ▸ ha, hsecond.symm ▸ hb⟩
  · rintro ⟨x, y, hgiven, ha, hb⟩
    exact ⟨_, hgiven, x, _, _, rfl, ha, y, _, _, rfl, hb, rfl, hself r.blank t⟩

end Storyboard
