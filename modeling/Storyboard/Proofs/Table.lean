import Mathlib.Data.List.Forall2
import Mathlib.Data.String.Basic
import Storyboard.Table

set_option autoImplicit false

namespace Storyboard.Table
variable {β : Type}

@[simp] theorem get?_empty (name : String) : ({} : Table β).get? name = none := rfl

theorem lookup_cons_eq_if (name n : String) (v : β) (es : List (String × β)) :
    List.lookup name ((n, v) :: es) = if name = n then some v else es.lookup name := by
  by_cases h : name = n
  · simp [h]
  · have hb : (name == n) = false := beq_false_of_ne h
    simp [List.lookup_cons, h, hb]

theorem lookup_insertEntry (name other : String) (value : β) (es : List (String × β)) :
    (insertEntry name value es).lookup other =
      if other = name then some value else es.lookup other := by
  induction es with
  | nil => exact lookup_cons_eq_if other name value []
  | cons e es ih =>
    obtain ⟨n, v⟩ := e
    simp only [insertEntry]
    split
    · rw [lookup_cons_eq_if]
    · split
      · rename_i heq
        subst heq
        simp only [lookup_cons_eq_if]
        split <;> rfl
      · rename_i hne
        simp only [lookup_cons_eq_if, ih]
        by_cases h : other = n
        · subst h
          simp [Ne.symm hne]
        · simp [h]

@[simp] theorem get?_insert (t : Table β) (name other : String) (value : β) :
    (t.insert name value).get? other = if other = name then some value else t.get? other :=
  lookup_insertEntry name other value t.entries

theorem get?_foldl_insert (es : List (String × β)) (t : Table β) (name : String) :
    (es.foldl (fun t e => t.insert e.1 e.2) t).get? name =
      (es.reverse.lookup name).or (t.get? name) := by
  induction es generalizing t with
  | nil => simp
  | cons e es ih =>
    obtain ⟨n, v⟩ := e
    rw [List.foldl_cons, ih, List.reverse_cons, List.lookup_append, Option.or_assoc,
      get?_insert, lookup_cons_eq_if]
    split <;> simp

theorem get?_ofList (es : List (String × β)) (name : String) :
    (ofList es).get? name = es.reverse.lookup name := by
  simp [ofList, get?_foldl_insert]

theorem lookup_of_mem {es : List (String × β)} {name : String} {value : β}
    (hn : (es.map Prod.fst).Nodup) (h : (name, value) ∈ es) : es.lookup name = some value := by
  induction es with
  | nil => simp at h
  | cons e es ih =>
    obtain ⟨n, v⟩ := e
    simp only [List.map_cons, List.nodup_cons] at hn
    rcases List.mem_cons.mp h with heq | hm
    · cases heq
      simp
    · have hne : name ≠ n := by
        rintro rfl
        exact hn.1 (List.mem_map.mpr ⟨(name, value), hm, rfl⟩)
      rw [lookup_cons_eq_if, if_neg hne]
      exact ih hn.2 hm

theorem lookup_eq_none_of_not_mem {es : List (String × β)} {name : String}
    (h : name ∉ es.map Prod.fst) : es.lookup name = none := by
  rw [List.lookup_eq_none_iff]
  intro e he
  exact bne_iff_ne.mpr fun heq => h (List.mem_map.mpr ⟨e, he, heq.symm⟩)

theorem lookup_reverse {es : List (String × β)} (h : (es.map Prod.fst).Nodup) (name : String) :
    es.reverse.lookup name = es.lookup name := by
  have hreverse : (es.reverse.map Prod.fst).Nodup := by
    rw [List.map_reverse]
    exact (List.reverse_perm _).nodup_iff.mpr h
  by_cases hmem : name ∈ es.map Prod.fst
  · obtain ⟨⟨_, value⟩, he, rfl⟩ := List.mem_map.mp hmem
    rw [lookup_of_mem h he, lookup_of_mem hreverse (List.mem_reverse.mpr he)]
  · have hback : name ∉ es.reverse.map Prod.fst := by
      rwa [List.map_reverse, List.mem_reverse]
    rw [lookup_eq_none_of_not_mem hmem, lookup_eq_none_of_not_mem hback]

theorem lookup_reverse_append {before after : List (String × β)} {name : String} (value : β)
    (h : name ∉ after.map Prod.fst) :
    (before ++ (name, value) :: after).reverse.lookup name = some value := by
  have hafter : name ∉ after.reverse.map Prod.fst := by
    rwa [List.map_reverse, List.mem_reverse]
  rw [List.reverse_append, List.reverse_cons, List.append_assoc, List.lookup_append,
    lookup_eq_none_of_not_mem hafter, Option.none_or, List.singleton_append, lookup_cons_eq_if,
    if_pos rfl]

theorem get?_ofList_of_mem {es : List (String × β)} {name : String} {value : β}
    (hn : (es.map Prod.fst).Nodup) (h : (name, value) ∈ es) :
    (ofList es).get? name = some value := by
  rw [get?_ofList, lookup_reverse hn]
  exact lookup_of_mem hn h

theorem forall₂_get?_ofList_zip {names : List String} {values : List β}
    (hl : names.length = values.length) (hn : names.Nodup) :
    List.Forall₂ (fun n v => (ofList (names.zip values)).get? n = some v) names values := by
  rw [List.forall₂_iff_zip]
  refine ⟨hl, fun h => get?_ofList_of_mem ?_ h⟩
  rwa [List.map_fst_zip (Nat.le_of_eq hl)]

def map {γ : Type} (f : β → γ) (t : Table β) : Table γ := ⟨t.entries.map fun e => (e.1, f e.2)⟩

section Map
variable {γ : Type} (f : β → γ)

theorem insertEntry_map (name : String) (value : β) (es : List (String × β)) :
    insertEntry name (f value) (es.map fun e => (e.1, f e.2)) =
      (insertEntry name value es).map fun e => (e.1, f e.2) := by
  induction es with
  | nil => rfl
  | cons e es ih =>
    obtain ⟨n, v⟩ := e
    simp only [insertEntry, List.map_cons]
    split
    · rfl
    · split
      · rfl
      · rw [ih, List.map_cons]

theorem ofList_map (es : List (String × β)) :
    ofList (es.map fun e => (e.1, f e.2)) = (ofList es).map f := by
  have hfold (t : Table β) :
      (es.map fun e => (e.1, f e.2)).foldl (fun t e => t.insert e.1 e.2) (t.map f) =
        (es.foldl (fun t e => t.insert e.1 e.2) t).map f := by
    induction es generalizing t with
    | nil => rfl
    | cons e es ih =>
      have hinsert : (t.map f).insert e.1 (f e.2) = (t.insert e.1 e.2).map f :=
        congrArg mk (insertEntry_map f e.1 e.2 t.entries)
      rw [List.map_cons, List.foldl_cons, List.foldl_cons, hinsert, ih]
  exact hfold {}

theorem names_ofList_of_map_fst {es : List (String × β)} {fs : List (String × γ)}
    (h : es.map Prod.fst = fs.map Prod.fst) : (ofList es).names = (ofList fs).names := by
  have hnames {δ : Type} (ds : List (String × δ)) :
      (ofList ds).names = (ofList ((ds.map Prod.fst).map fun name => (name, ()))).names := by
    have hunit := congrArg names (ofList_map (fun _ => ()) ds)
    rw [List.map_map]
    refine Eq.trans ?_ hunit.symm
    simp [names, map, Function.comp_def]
  rw [hnames es, hnames fs, h]

end Map

theorem mem_insertEntry {name : String} {value : β} {es : List (String × β)} {e : String × β}
    (h : e ∈ insertEntry name value es) : e = (name, value) ∨ e ∈ es := by
  induction es with
  | nil => simpa [insertEntry] using h
  | cons head es ih =>
    obtain ⟨n, v⟩ := head
    simp only [insertEntry] at h
    split at h
    · simpa using h
    · split at h
      · rcases List.mem_cons.mp h with h | h
        · exact .inl h
        · exact .inr (List.mem_cons_of_mem _ h)
      · rcases List.mem_cons.mp h with h | h
        · simp [h]
        · exact (ih h).imp_right (List.mem_cons_of_mem _)

theorem mem_entries_foldl_insert {es : List (String × β)} {t : Table β} {e : String × β}
    (h : e ∈ (es.foldl (fun t e => t.insert e.1 e.2) t).entries) : e ∈ es ∨ e ∈ t.entries := by
  induction es generalizing t with
  | nil => exact .inr h
  | cons head es ih =>
    rcases ih h with h | h
    · exact .inl (List.mem_cons_of_mem _ h)
    · rcases mem_insertEntry h with rfl | h
      · exact .inl List.mem_cons_self
      · exact .inr h

theorem mem_of_mem_entries_ofList {es : List (String × β)} {e : String × β}
    (h : e ∈ (ofList es).entries) : e ∈ es := by
  simpa using mem_entries_foldl_insert h

theorem mem_map_fst_insertEntry {name other : String} {value : β} {es : List (String × β)} :
    other ∈ (insertEntry name value es).map Prod.fst ↔ other = name ∨ other ∈ es.map Prod.fst := by
  induction es with
  | nil => simp [insertEntry]
  | cons e es ih =>
    obtain ⟨n, v⟩ := e
    simp only [insertEntry]
    split
    · simp
    · split
      · rename_i heq
        simp [heq]
      · simp only [List.map_cons, List.mem_cons, ih]
        exact or_left_comm

theorem pairwise_insertEntry (name : String) (value : β) {es : List (String × β)}
    (h : (es.map Prod.fst).Pairwise (· < ·)) :
    ((insertEntry name value es).map Prod.fst).Pairwise (· < ·) := by
  induction es with
  | nil => simp [insertEntry]
  | cons e es ih =>
    obtain ⟨n, v⟩ := e
    rw [List.map_cons, List.pairwise_cons] at h
    obtain ⟨hfirst, hrest⟩ := h
    simp only [insertEntry]
    split
    · rename_i hlt
      refine .cons ?_ (.cons hfirst hrest)
      rw [List.map_cons, List.forall_mem_cons]
      exact ⟨hlt, fun other hother => hlt.trans (hfirst other hother)⟩
    · rename_i hge
      split
      · rename_i heq
        exact .cons (heq ▸ hfirst) hrest
      · rename_i hne
        refine .cons (fun other hother => ?_) (ih hrest)
        rcases mem_map_fst_insertEntry.mp hother with rfl | hother
        · exact lt_of_le_of_ne (not_lt.mp hge) (Ne.symm hne)
        · exact hfirst other hother

theorem pairwise_names_insert {t : Table β} (h : t.names.Pairwise (· < ·)) (name : String)
    (value : β) : (t.insert name value).names.Pairwise (· < ·) :=
  pairwise_insertEntry name value h

theorem mem_names_insert {t : Table β} {name other : String} {value : β} :
    other ∈ (t.insert name value).names ↔ other = name ∨ other ∈ t.names :=
  mem_map_fst_insertEntry

theorem pairwise_names_ofList (es : List (String × β)) : (ofList es).names.Pairwise (· < ·) := by
  have hfold (t : Table β) (h : t.names.Pairwise (· < ·)) :
      (es.foldl (fun t e => t.insert e.1 e.2) t).names.Pairwise (· < ·) := by
    induction es generalizing t with
    | nil => exact h
    | cons e es ih => exact ih (t.insert e.1 e.2) (pairwise_names_insert h e.1 e.2)
  exact hfold {} .nil

theorem nodup_names {t : Table β} (h : t.names.Pairwise (· < ·)) : t.names.Nodup := h.imp ne_of_lt

theorem mem_names_foldl_insert {es : List (String × β)} {t : Table β} {name : String} :
    name ∈ (es.foldl (fun t e => t.insert e.1 e.2) t).names ↔
      name ∈ es.map Prod.fst ∨ name ∈ t.names := by
  induction es generalizing t with
  | nil => simp
  | cons e es ih =>
    rw [List.foldl_cons, ih, mem_names_insert, List.map_cons, List.mem_cons]
    exact or_left_comm.trans or_assoc.symm

theorem mem_names_ofList_iff {es : List (String × β)} {name : String} :
    name ∈ (ofList es).names ↔ name ∈ es.map Prod.fst := by
  rw [ofList, mem_names_foldl_insert]
  simp [names]

structure LastAt (names : List String) (name : String) (i : Nat) : Prop where
  here : names[i]? = some name
  last : ∀ j, i < j → names[j]? ≠ some name

theorem LastAt.unique {names : List String} {name : String} {i j : Nat}
    (hi : LastAt names name i) (hj : LastAt names name j) : i = j := by
  rcases lt_trichotomy i j with hlt | heq | hgt
  · exact absurd hj.here (hi.last j hlt)
  · exact heq
  · exact absurd hi.here (hj.last i hgt)

theorem exists_lastAt_of_mem {names : List String} {name : String} (h : name ∈ names) :
    ∃ i, LastAt names name i := by
  induction names with
  | nil => simp at h
  | cons n names ih =>
    by_cases hlater : name ∈ names
    · obtain ⟨i, hhere, hlast⟩ := ih hlater
      refine ⟨i + 1, hhere, fun j hj => ?_⟩
      cases j with
      | zero => omega
      | succ j => exact hlast j (Nat.succ_lt_succ_iff.mp hj)
    · have hn : name = n := (List.mem_cons.mp h).resolve_right hlater
      refine ⟨0, by simp [hn], fun j hj => ?_⟩
      cases j with
      | zero => omega
      | succ j => exact fun hlast => hlater (List.mem_of_getElem? hlast)

theorem get?_ofList_zip_of_lastAt {names : List String} {values : List β} {name : String} {i : Nat}
    (hl : names.length = values.length) (h : LastAt names name i) :
    (ofList (names.zip values)).get? name = values[i]? := by
  rw [get?_ofList]
  induction names generalizing values i with
  | nil => simpa using h.here
  | cons n names ih =>
    obtain ⟨value, values, rfl⟩ := List.exists_cons_of_length_eq_add_one hl.symm
    have hrest : names.length = values.length := Nat.succ_inj.mp hl
    rw [List.zip_cons_cons, List.reverse_cons, List.lookup_append]
    cases i with
    | zero =>
      have hn : n = name := by simpa using h.here
      have hlater : name ∉ (names.zip values).reverse.map Prod.fst := by
        rw [List.map_reverse, List.mem_reverse, List.map_fst_zip hrest.le]
        intro hmem
        obtain ⟨j, hj⟩ := List.mem_iff_getElem?.mp hmem
        exact h.last (j + 1) (Nat.succ_pos j) (by rwa [List.getElem?_cons_succ])
      simp [lookup_eq_none_of_not_mem hlater, hn]
    | succ i =>
      have hlater : LastAt names name i :=
        ⟨h.here, fun j hj => h.last (j + 1) (Nat.succ_lt_succ hj)⟩
      have hi : i < values.length := by
        rw [← hrest]
        exact (List.getElem?_eq_some_iff.mp hlater.here).1
      rw [ih hrest hlater, List.getElem?_cons_succ, List.getElem?_eq_getElem hi, Option.some_or]

theorem exists_get?_ofList_zip {names : List String} {values : List β} {name : String} {i : Nat}
    (hl : names.length = values.length) (h : LastAt names name i) :
    ∃ value, values[i]? = some value ∧ (ofList (names.zip values)).get? name = some value := by
  have hi : i < values.length := hl ▸ (List.getElem?_eq_some_iff.mp h.here).1
  exact ⟨values[i], List.getElem?_eq_getElem hi,
    (get?_ofList_zip_of_lastAt hl h).trans (List.getElem?_eq_getElem hi)⟩

end Storyboard.Table
