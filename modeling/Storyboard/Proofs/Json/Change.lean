import Storyboard.Json.Tagged
import Storyboard.Proofs.Json.Codec
import Storyboard.Proofs.Json.Place
import Storyboard.Proofs.Traversal

set_option autoImplicit false

namespace Storyboard
open Json
variable {α β σ τ : Type} {o : Origin} {x y : Json}

namespace Json
variable {d i : Nat} {f : Json → Json} {p : List Nat} {v w : String} {j : Json}

theorem all_modify {q : α → Bool} {g : α → α} {xs : List α} {i : Nat}
    (h : ∀ x ∈ xs[i]?, q (g x) = q x) : (xs.modify i g).all q = xs.all q := by
  induction xs generalizing i with
  | nil => simp
  | cons x xs ih =>
    cases i with
    | zero => simp [h x rfl]
    | succ i => simpa using congrArg (q x && ·) (ih h)

theorem modifyAt_id (i : Nat) (j : Json) : j.modifyAt i id = j := by
  cases j with
  | arr xs => exact congrArg arr (List.modify_id i xs)
  | obj es => exact congrArg obj (List.modify_id i es)
  | _ => rfl

theorem keepable_modifyAt (h : ∀ d, ∀ x ∈ j.child? i, (f x).keepable d = x.keepable d) :
    (j.modifyAt i f).keepable d = j.keepable d := by
  cases j with
  | arr xs =>
    cases d with
    | zero => rfl
    | succ d =>
      simp only [modifyAt, keepable, keepableItems_eq_all]
      exact all_modify (h d)
  | obj es =>
    cases d with
    | zero => rfl
    | succ d =>
      simp only [modifyAt, keepable, keepableEntries_eq_all]
      refine all_modify fun e he => congrArg (e.1.isSome && ·) (h d e.2 ?_)
      simp_all [child?]
  | _ => rfl

theorem at?_cons_eq_some_iff {i : Nat} {p : List Nat} :
    at? (i :: p) j = some y ↔ ∃ x, j.child? i = some x ∧ at? p x = some y := by
  simp only [at?, Option.bind_eq_some_iff]

theorem keepable_put (h : at? p j = some (.str v)) (d : Nat) :
    (put (.str w) p j).keepable d = j.keepable d := by
  induction p generalizing j d with
  | nil =>
    cases h
    rfl
  | cons i p ih =>
    obtain ⟨x, hx, hv⟩ := at?_cons_eq_some_iff.mp h
    exact keepable_modifyAt fun d y hy => by
      cases hx.symm.trans hy
      exact ih hv d

end Json

namespace Field
variable (key : String) (c : Codec β)

@[simp] theorem key_required (get : σ → β) (set : β → σ → σ) :
    (required key c get set).key = key := rfl

@[simp] theorem key_defaulted (get : σ → β) (set : β → σ → σ) :
    (defaulted key c get set).key = key := rfl

@[simp] theorem key_listed (get : σ → List β) (set : List β → σ → σ) :
    (listed key c get set).key = key := rfl

@[simp] theorem key_optional (get : σ → Option β) (set : Option β → σ → σ) :
    (optional key c get set).key = key := rfl

end Field

/-- What is read in the one place, changed, is read in the other. -/
def Codec.Follows (c : Codec α) (o : Origin) (x y : Json) (f : α → α) : Prop :=
  ∀ a, c.read o x = .ok a → c.read o y = .ok (f a)

namespace Codec.Follows

theorem list {c : Codec α} {xs : List Json} {i : Nat} {g : Json → Json} {f : α → α}
    (hx : xs[i]? = some x) (h : c.Follows o x (g x) f) :
    c.list.Follows o (.arr xs) (.arr (xs.modify i g)) fun as => as.modify i f := by
  intro as has
  have hread := mapM_eq_ok_iff.mp has
  refine mapM_eq_ok_iff.mpr ?_
  clear has
  induction hread generalizing i with
  | nil => simp at hx
  | @cons y a ys as ha hrest ih =>
    cases i with
    | zero =>
      cases hx
      exact .cons (h a ha) hrest
    | succ i => exact .cons ha (ih hx)

theorem iso {c : Codec α} {there : α → β} {back : β → α} {f : α → α} {g : β → β}
    (h : c.Follows o x y f) (hfg : ∀ a, there (f a) = g (there a)) :
    (c.iso there back).Follows o x y g := by
  intro b hb
  obtain ⟨a, ha, rfl⟩ := map_eq_ok_iff.mp hb
  exact map_eq_ok_iff.mpr ⟨f a, h a ha, hfg a⟩

theorem either_inl {name : String} {left : Codec α} {right : Codec β} {f : α → α}
    {g : α ⊕ β → α ⊕ β} (hx : ∃ a, left.read o x = .ok a) (h : left.Follows o x y f)
    (hfg : ∀ a, .inl (f a) = g (.inl a)) : (Codec.either name left right).Follows o x y g := by
  intro s hs
  obtain ⟨a, ha⟩ := hx
  simp only [Codec.either, ha] at hs
  cases hs
  simp only [Codec.either, h a ha, hfg]

theorem either_inr {name : String} {left : Codec α} {right : Codec β} {f : β → β}
    {g : α ⊕ β → α ⊕ β} (hx : ∀ a, left.read o x ≠ .ok a) (h : right.Follows o x y f)
    (hy : ∀ b, right.read o y = .ok b → ∀ a, left.read o y ≠ .ok a)
    (hfg : ∀ b, .inr (f b) = g (.inr b)) : (Codec.either name left right).Follows o x y g := by
  intro s hs
  simp only [Codec.either] at hs
  split at hs
  · rename_i a ha
    exact absurd ha (hx a)
  · rename_i b _ hb
    cases hs
    have hread := h b hb
    cases hleft : left.read o y with
    | ok a => exact absurd hleft (hy _ hread a)
    | error e => simp only [Codec.either, hleft, hread, hfg]
  · cases hs

end Codec.Follows

/-- What the field makes of a record for the one value, changed, it makes of it for the other. -/
def Field.Follows (f : Field σ) (o : Origin) (x y : Json) (g : σ → σ) : Prop :=
  ∀ s t, f.read o x s = .ok t → f.read o y s = .ok (g t)

/-- The change of a record does not touch what the field reads. -/
def Field.Spares (f : Field σ) (g : σ → σ) : Prop :=
  ∀ o x s t, f.read o x s = .ok t → f.read o x (g s) = .ok (g t)

namespace Field.Follows
variable {key : String} {c : Codec β} {h : β → β} {g : σ → σ}

theorem required {get : σ → β} {set : β → σ → σ} (hc : c.Follows o x y h)
    (hset : ∀ b s, set (h b) s = g (set b s)) : (Field.required key c get set).Follows o x y g := by
  intro s t ht
  obtain ⟨b, hb, ht⟩ := bind_eq_ok_iff.mp ht
  cases ht
  exact bind_eq_ok_iff.mpr ⟨h b, hc b hb, congrArg Except.ok (hset b s)⟩

theorem defaulted {get : σ → β} {set : β → σ → σ} (hc : c.Follows o x y h)
    (hset : ∀ b s, set (h b) s = g (set b s)) : (Field.defaulted key c get set).Follows o x y g :=
  show (Field.required key c get set).Follows o x y g from required hc hset

theorem optional {v w : String} {get : σ → Option β} {set : Option β → σ → σ}
    (hc : c.Follows o (.str v) (.str w) h) (hset : ∀ b s, set (some (h b)) s = g (set (some b) s)) :
    (Field.optional key c get set).Follows o (.str v) (.str w) g := by
  intro s t ht
  obtain ⟨b, hb, ht⟩ := bind_eq_ok_iff.mp ht
  cases ht
  exact bind_eq_ok_iff.mpr ⟨h b, hc b hb, congrArg Except.ok (hset b s)⟩

end Field.Follows

namespace Field.Spares
variable {key : String} {c : Codec β} {g : σ → σ}

@[simp] theorem required {get : σ → β} {set : β → σ → σ} (h : ∀ b s, set b (g s) = g (set b s)) :
    (Field.required key c get set).Spares g := by
  intro o x s t ht
  obtain ⟨b, hb, ht⟩ := bind_eq_ok_iff.mp ht
  cases ht
  exact bind_eq_ok_iff.mpr ⟨b, hb, congrArg Except.ok (h b s)⟩

@[simp] theorem defaulted {get : σ → β} {set : β → σ → σ} (h : ∀ b s, set b (g s) = g (set b s)) :
    (Field.defaulted key c get set).Spares g :=
  show (Field.required key c get set).Spares g from required h

@[simp] theorem listed {get : σ → List β} {set : List β → σ → σ}
    (h : ∀ b s, set b (g s) = g (set b s)) : (Field.listed key c get set).Spares g :=
  show (Field.required key c.list get set).Spares g from required h

@[simp] theorem optional {get : σ → Option β} {set : Option β → σ → σ}
    (h : ∀ b s, set b (g s) = g (set b s)) : (Field.optional key c get set).Spares g := by
  intro o x s t ht
  simp only [Field.optional] at ht ⊢
  split at ht
  · cases ht
    exact congrArg Except.ok (h none s)
  · obtain ⟨b, hb, ht⟩ := bind_eq_ok_iff.mp ht
    cases ht
    exact bind_eq_ok_iff.mpr ⟨b, hb, congrArg Except.ok (h (some b) s)⟩

end Field.Spares

namespace Record
variable {r : Record σ} {g : σ → σ} {key : String}

/-- The item or entry of the index is what the record reads as the field. -/
def Holds (r : Record σ) (key : String) (j : Json) (i : Nat) (x : Json) : Prop :=
  match j with
  | .obj es => es[i]? = some (some key, x)
  | .arr xs => (r.fields.map Field.key)[i]? = some key ∧ xs[i]? = some x
  | _ => False

theorem Holds.child?_eq {j : Json} {i : Nat} (h : r.Holds key j i x) : j.child? i = some x := by
  cases j with
  | obj es => simp [child?, show es[i]? = some (some key, x) from h]
  | arr xs => exact h.2
  | _ => exact h.elim

theorem readItems_of_spares {fs : List (Field σ)} (hfs : ∀ f ∈ fs, f.Spares g) {i : Nat}
    {xs : List Json} {s t : σ} (h : r.readItems o fs i xs s = .ok t) :
    r.readItems o fs i xs (g s) = .ok (g t) := by
  induction fs generalizing i xs s with
  | nil =>
    cases xs with
    | nil =>
      cases h
      rfl
    | cons x xs => cases h
  | cons f fs ih =>
    rw [List.forall_mem_cons] at hfs
    cases xs with
    | nil =>
      simp only [readItems] at h ⊢
      split at h
      · cases h
      · rename_i hneeded
        rw [if_neg hneeded]
        exact ih hfs.2 h
    | cons x xs =>
      obtain ⟨u, hu, h⟩ := bind_eq_ok_iff.mp h
      exact bind_eq_ok_iff.mpr ⟨g u, hfs.1 _ _ _ _ hu, ih hfs.2 h⟩

theorem exists_readItems_eq {fs : List (Field σ)} (hkeys : (fs.map Field.key).Nodup) {f : Field σ}
    (hf : f ∈ fs) {m i : Nat} {xs : List Json} {s t : σ}
    (hm : (fs.map Field.key)[m]? = some f.key) (hx : xs[m]? = some x)
    (h : r.readItems o fs i xs s = .ok t) :
    ∃ u rest, (∀ edit, r.readItems o fs i (xs.modify m edit) s = (f.read o (edit x) u).bind rest) ∧
      ∀ g, (∀ f' ∈ fs, f'.key ≠ f.key → f'.Spares g) → ∀ v w, rest v = .ok w →
        rest (g v) = .ok (g w) := by
  induction fs generalizing m i xs s with
  | nil => simp at hf
  | cons f' fs ih =>
    rw [List.map_cons, List.nodup_cons] at hkeys
    cases xs with
    | nil => simp at hx
    | cons y ys =>
      cases m with
      | zero =>
        cases hx
        have hkey : f'.key = f.key := by simpa using hm
        obtain rfl : f = f' := by
          rcases List.mem_cons.mp hf with hf | hf
          · exact hf
          · exact absurd (List.mem_map_of_mem hf) (hkey ▸ hkeys.1)
        refine ⟨s, r.readItems o fs (i + 1) ys, fun edit => rfl, fun g hg v w hw => ?_⟩
        refine readItems_of_spares (fun f' hf' => hg f' (List.mem_cons_of_mem f hf') ?_) hw
        exact fun heq => hkeys.1 (heq ▸ List.mem_map_of_mem hf')
      | succ m =>
        obtain ⟨u, hu, hread⟩ := bind_eq_ok_iff.mp h
        have hm : (fs.map Field.key)[m]? = some f.key := by simpa using hm
        have hf : f ∈ fs := by
          rcases List.mem_cons.mp hf with hf | hf
          · exact absurd (List.mem_of_getElem? hm) (hf ▸ hkeys.1)
          · exact hf
        obtain ⟨v, rest, hedit, hrest⟩ := ih hkeys.2 hf hm hx hread
        refine ⟨v, rest, fun edit => ?_, fun g hg => hrest g fun f'' hf'' =>
          hg f'' (List.mem_cons_of_mem f' hf'')⟩
        rw [← hedit, List.modify_succ_cons, readItems, hu]
        rfl

theorem readEntries_of_spares (hspares : ∀ f ∈ r.fields, f.key ≠ key → f.Spares g)
    {es : List (Option String × Json)} {seen : List String} (hseen : key ∈ seen) {s t : σ}
    (h : r.readEntries o es seen s = .ok t) : r.readEntries o es seen (g s) = .ok (g t) := by
  induction es generalizing seen s with
  | nil =>
    simp only [readEntries] at h ⊢
    split at h
    · cases h
    · cases h
      rfl
  | cons e es ih =>
    obtain ⟨k, y⟩ := e
    cases k with
    | none => cases h
    | some k =>
      rw [readEntries_cons_eq_ok_iff] at h ⊢
      rcases h with ⟨hnone, hy, h⟩ | ⟨f, u, hf, hk, hu, h⟩
      · exact .inl ⟨hnone, hy, ih hseen h⟩
      · have hne : f.key ≠ key := by
          rw [show f.key = k by simpa using List.find?_some hf]
          exact fun heq => hk (heq ▸ hseen)
        exact .inr ⟨f, g u, hf, hk, hspares f (List.mem_of_find?_eq_some hf) hne _ _ _ _ hu,
          ih (List.mem_cons_of_mem k hseen) h⟩

theorem exists_readEntries_eq (hkeys : (r.fields.map Field.key).Nodup) {f : Field σ}
    (hf : f ∈ r.fields) {i : Nat} {es : List (Option String × Json)}
    (hx : es[i]? = some (some f.key, x)) {seen : List String} {s t : σ}
    (h : r.readEntries o es seen s = .ok t) :
    ∃ u rest, (∀ edit : Json → Json, r.readEntries o (es.modify i fun e => (e.1, edit e.2)) seen s =
        (f.read o (edit x) u).bind rest) ∧
      ∀ g, (∀ f' ∈ r.fields, f'.key ≠ f.key → f'.Spares g) → ∀ v w, rest v = .ok w →
        rest (g v) = .ok (g w) := by
  induction es generalizing i seen s with
  | nil => simp at hx
  | cons e es ih =>
    obtain ⟨k, y⟩ := e
    cases k with
    | none => cases h
    | some k =>
      rw [readEntries_cons_eq_ok_iff] at h
      cases i with
      | zero =>
        cases hx
        have hfind := find?_of_nodup hkeys hf
        rcases h with ⟨hnone, -, -⟩ | ⟨f', u, hf', hk, hu, h⟩
        · simp [hfind] at hnone
        · refine ⟨s, r.readEntries o es (f.key :: seen), fun edit => ?_, fun g hg v w hw =>
            readEntries_of_spares hg List.mem_cons_self hw⟩
          simp only [List.modify_zero_cons, readEntries, hfind]
          exact if_neg (by simpa using hk)
      | succ i =>
        have hx : es[i]? = some (some f.key, x) := hx
        rcases h with ⟨hnone, hy, h⟩ | ⟨f', u, hf', hk, hu, h⟩
        · obtain ⟨v, rest, hedit, hrest⟩ := ih hx h
          refine ⟨v, rest, fun edit => ?_, hrest⟩
          rw [← hedit]
          simp [readEntries, hnone, hy]
        · obtain ⟨v, rest, hedit, hrest⟩ := ih hx h
          refine ⟨v, rest, fun edit => ?_, hrest⟩
          rw [← hedit]
          simp [readEntries, hf', hk, hu, bind, Except.bind]

/-- A change in a field of a record that is read leaves what was read before it, and what comes
after it cannot tell. -/
theorem exists_read_eq (hkeys : (r.fields.map Field.key).Nodup) {f : Field σ} (hf : f ∈ r.fields)
    {j : Json} {i : Nat} (hx : r.Holds f.key j i x) {s : σ} (hs : r.codec.read o j = .ok s) :
    ∃ u rest, (∀ edit, r.codec.read o (j.modifyAt i edit) = (f.read o (edit x) u).bind rest) ∧
      ∀ g, (∀ f' ∈ r.fields, f'.key ≠ f.key → f'.Spares g) → ∀ v w, rest v = .ok w →
        rest (g v) = .ok (g w) := by
  cases j with
  | obj es => exact exists_readEntries_eq hkeys hf hx hs
  | arr xs => exact exists_readItems_eq hkeys hf hx.1 hx.2 hs
  | _ => exact hx.elim

theorem follows (hkeys : (r.fields.map Field.key).Nodup) {f : Field σ} (hf : f ∈ r.fields)
    {j : Json} {i : Nat} (hx : r.Holds f.key j i x) {edit : Json → Json}
    (hfollows : f.Follows o x (edit x) g)
    (hspares : ∀ f' ∈ r.fields, f'.key ≠ f.key → f'.Spares g) :
    r.codec.Follows o j (j.modifyAt i edit) g := by
  intro s hs
  obtain ⟨u, rest, hread, hrest⟩ := exists_read_eq hkeys hf hx hs
  rw [← modifyAt_id i j, hread] at hs
  obtain ⟨v, hv, hw⟩ := bind_eq_ok_iff.mp hs
  exact (hread edit).trans (bind_eq_ok_iff.mpr ⟨g v, hfollows u v hv, hrest g hspares v s hw⟩)

theorem read_modifyAt_of_unknown {es : List (Option String × Json)} {k : String} {i : Nat}
    (hx : es[i]? = some (some k, x)) (hk : k ∉ r.fields.map Field.key) {edit : Json → Json}
    (hwhole : (edit x).whole = x.whole) :
    r.codec.read o ((Json.obj es).modifyAt i edit) = r.codec.read o (.obj es) := by
  change r.readEntries o (es.modify i fun e => (e.1, edit e.2)) [] r.blank =
    r.readEntries o es [] r.blank
  generalize ([] : List String) = seen
  generalize r.blank = s
  induction es generalizing i seen s with
  | nil => simp at hx
  | cons e es ih =>
    cases i with
    | zero =>
      cases hx
      simp only [List.modify_zero_cons, readEntries, find?_eq_none_of_unknown hk, hwhole]
    | succ i =>
      obtain ⟨k', y⟩ := e
      have hx : es[i]? = some (some k, x) := hx
      cases k' with
      | none => rfl
      | some k' =>
        simp only [List.modify_succ_cons, readEntries, ih hx]

end Record

namespace Tagged
variable {t : Tagged σ} {s : σ} {key tag : String} {j : Json} {i : Nat}

theorem exists_modify_around {before after : List α} {m e : α} {i : Nat}
    (he : (before ++ m :: after)[i]? = some e) (hne : e ≠ m) (f : α → α) :
    ∃ i' before' after', (before ++ after)[i']? = some e ∧
      (before ++ m :: after).modify i f = before' ++ m :: after' ∧
      (before ++ after).modify i' f = before' ++ after' := by
  induction before generalizing i with
  | nil =>
    cases i with
    | zero => exact absurd (Option.some.inj he).symm hne
    | succ i => exact ⟨i, [], after.modify i f, he, rfl, rfl⟩
  | cons c before ih =>
    cases i with
    | zero => exact ⟨0, f c :: before, after, he, rfl, rfl⟩
    | succ i =>
      obtain ⟨i', before', after', hget, hwith, hwithout⟩ := ih he
      exact ⟨i' + 1, c :: before', after', hget, congrArg (c :: ·) hwith,
        congrArg (c :: ·) hwithout⟩

def HasTag (tag : String) : Json → Prop
  | .obj es => (some "type", .str tag) ∈ es
  | .arr xs => xs.head? = some (.str tag)
  | _ => False

/-- The item or entry of the index is what the record of the kind reads as the field. -/
def Holds (r : Record β) (key : String) (j : Json) (i : Nat) (x : Json) : Prop :=
  match j with
  | .obj es => es[i]? = some (some key, x)
  | .arr (_ :: xs) => ∃ m, i = m + 1 ∧ r.Holds key (.arr xs) m x
  | _ => False

theorem Holds.child?_eq {r : Record β} (h : Holds r key j i x) : j.child? i = some x := by
  unfold Holds at h
  split at h
  · simp [child?, h]
  · obtain ⟨m, rfl, hm⟩ := h
    exact hm.child?_eq
  · exact h.elim

theorem read_modifyAt {k : Kind σ} {r : Record β} (hkind : t.kind (.str tag) = .ok k)
    (htag : HasTag tag j) (hx : Holds r key j i x) (hkey : key ≠ "type") (edit : Json → Json)
    (hedit : x.keepable depth = true → (edit x).keepable depth = true)
    (hs : t.codec.read o j = .ok s) :
    ∃ j' i', r.Holds key j' i' x ∧ k.read j' = .ok s ∧
      t.codec.read o (j.modifyAt i edit) = k.read (j'.modifyAt i' edit) := by
  unfold Holds at hx
  split at hx
  · rename_i es
    obtain ⟨before, tagged, after, k', rfl, hes, hk', hs⟩ := readEntries_none_eq_ok_iff.mp hs
    -- the entry with the tag is the one entry that could not be set aside
    have htagged : tagged = .str tag := by
      have hne : (some "type", .str tag) ∉ before ++ after := fun hmem => by
        simpa [isKept] using List.all_eq_true.mp hes _ hmem
      simp_all [HasTag]
    subst htagged
    cases hkind.symm.trans hk'
    obtain ⟨i', before', after', hget, hwith, hwithout⟩ := exists_modify_around hx (by simp [hkey])
      fun e => (e.1, edit e.2)
    have hkept : (before' ++ after').all isKept = true := by
      rw [← hwithout, ← hes]
      refine all_modify fun e he => ?_
      cases hget.symm.trans he
      have hkept := List.all_eq_true.mp hes _ (List.mem_of_getElem? hget)
      simp only [isKept, Bool.and_eq_true] at hkept ⊢
      rw [hkept.2, hedit hkept.2]
    refine ⟨.obj (before ++ after), i', hget, hs, ?_⟩
    change t.readEntries ((before ++ _ :: after).modify i _) none [] =
      k.read (.obj ((before ++ after).modify i' _))
    rw [hwith, hwithout]
    exact readEntries_of_kept hkept hkind
  · rename_i first xs
    obtain ⟨m, rfl, hm⟩ := hx
    cases htag
    obtain ⟨k', hk', hs⟩ := bind_eq_ok_iff.mp hs
    cases hkind.symm.trans hk'
    split at hs
    · rename_i hall
      have hx := List.all_eq_true.mp hall _ (List.mem_of_getElem? hm.2)
      have hkept : (xs.modify m edit).all (keepable depth) = true := by
        rw [← hall]
        refine all_modify fun y hy => ?_
        cases hm.2.symm.trans hy
        rw [hx, hedit hx]
      refine ⟨.arr xs, m, hm, hs, ?_⟩
      change (t.kind (.str tag)).bind _ = _
      rw [hkind]
      exact if_pos hkept
    · cases hs
  · exact hx.elim

theorem follows {k : Kind σ} {r : Record β} {edit : Json → Json} {g : σ → σ}
    (hkind : t.kind (.str tag) = .ok k) (htag : HasTag tag j) (hx : Holds r key j i x)
    (hkey : key ≠ "type") (hedit : x.keepable depth = true → (edit x).keepable depth = true)
    (hk : ∀ j i s, r.Holds key j i x → k.read j = .ok s → k.read (j.modifyAt i edit) = .ok (g s)) :
    t.codec.Follows o j (j.modifyAt i edit) g := by
  intro s hs
  obtain ⟨j', i', hx, hs, hread⟩ := read_modifyAt hkind htag hx hkey edit hedit hs
  exact hread.trans (hk j' i' s hx hs)

end Tagged

theorem Kind.follows_of {tag : String} {r : Record β} {into : β → σ} {out? : σ → Option β}
    {f : β → β} {g : σ → σ} (h : r.codec.Follows .kept x y f) (hinto : ∀ b, into (f b) = g (into b))
    {s : σ} (hs : (Kind.of tag r into out?).read x = .ok s) :
    (Kind.of tag r into out?).read y = .ok (g s) := by
  obtain ⟨b, hb, rfl⟩ := map_eq_ok_iff.mp hs
  exact map_eq_ok_iff.mpr ⟨f b, h b hb, hinto b⟩

end Storyboard
