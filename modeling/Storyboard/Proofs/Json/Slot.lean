import Storyboard.Proofs.Json.Change

set_option autoImplicit false

/-!
Keywords in documents: where they stand, what they are words of, and that any string may stand there
in place of another. A set of slots says which keywords of a value stand where in a document; slots
of the parts of a value are slots of the value.
-/

namespace Storyboard
open Json
variable {α β σ τ : Type} {o : Origin} {j x : Json} {p : List Nat}

/-- A keyword of a value: the field that it is the word of, the keys that mean something there, the
one that all others are taken for, and what a string in its place makes of the value. -/
structure Slot (σ : Type) where
  key : String
  known : List String
  fallback : String
  set : String → σ → σ
  set_of_unknown : ∀ w, w ∉ known → set w = set fallback

theorem Keyword.ofKey_of_unknown {κ : Type} [Keyword κ] {w : String} (h : w ∉ Word.keys κ) :
    Keyword.ofKey w = (Keyword.fallback : κ) := by
  have hnone : (Word.ofKey? w : Option κ) = none := by
    unfold Word.ofKey?
    rw [List.find?_eq_none]
    exact fun k hk hkey => h (List.mem_map.mpr ⟨k, hk, by simpa using hkey⟩)
  simp [Keyword.ofKey, hnone]

namespace Slot

def of {κ : Type} [Keyword κ] (key fallback : String)
    (h : Keyword.ofKey fallback = (Keyword.fallback : κ)) (set : κ → σ → σ) : Slot σ where
  key := key
  known := Word.keys κ
  fallback := fallback
  set w := set (Keyword.ofKey w)
  set_of_unknown w hw := by rw [Keyword.ofKey_of_unknown hw, h]

def lift (t : Slot τ) (modify : (τ → τ) → σ → σ) : Slot σ where
  key := t.key
  known := t.known
  fallback := t.fallback
  set w := modify (t.set w)
  set_of_unknown w hw := by rw [t.set_of_unknown w hw]

end Slot

def Slot.entry (t : Slot σ) : String × String × List String := (t.key, t.fallback, t.known)

/-- Which keywords of a value stand where in a document. -/
def Slots (σ : Type) : Type := Json → List Nat → Slot σ → Prop

def Record.words (r : Record σ) (slots : List (Slot σ)) : Slots σ := fun j p t =>
  t ∈ slots ∧ ∃ i v, p = [i] ∧ r.Holds t.key j i (.str v)

def Record.inside (r : Record σ) (key : String) (modify : (τ → τ) → σ → σ) (A : Slots τ) :
    Slots σ := fun j p t =>
  ∃ i x q u, r.Holds key j i x ∧ A x q u ∧ p = i :: q ∧ t = u.lift modify

def Tagged.inside (tag : String) (r : Record β) (key : String) (modify : (τ → τ) → σ → σ)
    (A : Slots τ) : Slots σ := fun j p t =>
  HasTag tag j ∧ ∃ i x q u, Holds r key j i x ∧ A x q u ∧ p = i :: q ∧ t = u.lift modify

namespace Slots

def items (A : Slots τ) : Slots (List τ) := fun j p t =>
  ∃ xs i x q u, j = .arr xs ∧ xs[i]? = some x ∧ A x q u ∧ p = i :: q ∧
    t = u.lift fun f ts => ts.modify i f

def or (A B : Slots σ) : Slots σ := fun j p t => A j p t ∨ B j p t

def Among (A : Slots σ) (entries : List (String × String × List String)) : Prop :=
  ∀ j p t, A j p t → t.entry ∈ entries

namespace Among
variable {entries : List (String × String × List String)} {A B : Slots σ} {C : Slots τ}
  {key : String} {modify : (τ → τ) → σ → σ}

theorem words {r : Record σ} {slots : List (Slot σ)} (h : ∀ t ∈ slots, t.entry ∈ entries) :
    (r.words slots).Among entries :=
  fun _ _ t ht => h t ht.1

theorem inside {r : Record σ} (h : C.Among entries) : (r.inside key modify C).Among entries := by
  rintro j p t ⟨i, x, q, u, -, hu, -, rfl⟩
  exact h x q u hu

theorem inside_kind {tag : String} {r : Record β} (h : C.Among entries) :
    (Tagged.inside tag r key modify C).Among entries := by
  rintro j p t ⟨-, i, x, q, u, -, hu, -, rfl⟩
  exact h x q u hu

theorem items (h : C.Among entries) : C.items.Among entries := by
  rintro j p t ⟨xs, i, x, q, u, -, -, hu, -, rfl⟩
  exact h x q u hu

theorem or (hA : A.Among entries) (hB : B.Among entries) : (A.or B).Among entries :=
  fun j p t ht => ht.elim (hA j p t) (hB j p t)

end Among
end Slots

/-- Any string may stand where one of the keywords stands, and is read as it. -/
def Codec.Admits (c : Codec σ) (o : Origin) (A : Slots σ) : Prop :=
  ∀ j p t, A j p t → (∃ v, at? p j = some (.str v)) ∧
    ∀ w, c.Follows o j (put (.str w) p j) (t.set w)

theorem Codec.Follows.keyword {κ : Type} [Keyword κ] (v w : String) :
    (Codec.keyword (κ := κ)).Follows o (.str v) (.str w) fun _ => Keyword.ofKey w :=
  fun _ _ => rfl

def Record.Takes (r : Record σ) (t : Slot σ) : Prop :=
  ∃ f ∈ r.fields, f.key = t.key ∧ (∀ o v w, f.Follows o (.str v) (.str w) (t.set w)) ∧
    ∀ w, ∀ f' ∈ r.fields, f'.key ≠ t.key → f'.Spares (t.set w)

theorem Record.admits_words {r : Record σ} (hkeys : (r.fields.map Field.key).Nodup)
    {slots : List (Slot σ)} (h : ∀ t ∈ slots, r.Takes t) :
    r.codec.Admits o (r.words slots) := by
  rintro j p t ⟨ht, i, v, rfl, hv⟩
  obtain ⟨f, hf, hkey, hfollows, hspares⟩ := h t ht
  refine ⟨⟨v, at?_cons_eq_some_iff.mpr ⟨_, hv.child?_eq, rfl⟩⟩, fun w => ?_⟩
  rw [← hkey] at hv
  refine Record.follows hkeys hf hv (hfollows o v w) ?_
  exact fun f' hf' hne => hspares w f' hf' (hkey ▸ hne)

/-- The record has a field of the codec, and a change of what is read there is a change of the
record that no other field notices. -/
structure Record.Bears (r : Record σ) (key : String) (c : Codec τ) (modify : (τ → τ) → σ → σ) :
    Prop where
  nodup : (r.fields.map Field.key).Nodup
  field : ∃ f ∈ r.fields, f.key = key ∧ ∀ o x y h, c.Follows o x y h → f.Follows o x y (modify h)
  spares : ∀ h, ∀ f ∈ r.fields, f.key ≠ key → f.Spares (modify h)

theorem Record.Bears.follows {r : Record σ} {key : String} {c : Codec τ}
    {modify : (τ → τ) → σ → σ} (hr : r.Bears key c modify) {i : Nat} (hx : r.Holds key j i x)
    {edit : Json → Json} {h : τ → τ} (hc : c.Follows o x (edit x) h) :
    r.codec.Follows o j (j.modifyAt i edit) (modify h) := by
  obtain ⟨f, hf, rfl, hfollows⟩ := hr.field
  exact Record.follows hr.nodup hf hx (hfollows _ _ _ _ hc) (hr.spares h)

namespace Codec.Admits
variable {c : Codec σ} {A B : Slots σ}

theorem or (hA : c.Admits o A) (hB : c.Admits o B) : c.Admits o (A.or B) := by
  rintro j p t (ht | ht)
  · exact hA j p t ht
  · exact hB j p t ht

theorem items (h : c.Admits o A) : c.list.Admits o A.items := by
  rintro j p t ⟨xs, i, x, q, u, rfl, hx, hu, rfl, rfl⟩
  obtain ⟨⟨v, hv⟩, hw⟩ := h x q u hu
  exact ⟨⟨v, at?_cons_eq_some_iff.mpr ⟨x, hx, hv⟩⟩, fun w => .list hx (hw w)⟩

theorem inside {r : Record σ} {key : String} {c : Codec τ} {modify : (τ → τ) → σ → σ}
    (hr : r.Bears key c modify) {C : Slots τ} (hC : c.Admits o C) :
    r.codec.Admits o (r.inside key modify C) := by
  rintro j p t ⟨i, x, q, u, hx, hu, rfl, rfl⟩
  obtain ⟨⟨v, hv⟩, hw⟩ := hC x q u hu
  exact ⟨⟨v, at?_cons_eq_some_iff.mpr ⟨x, hx.child?_eq, hv⟩⟩, fun w => hr.follows hx (hw w)⟩

theorem inside_kind {t : Tagged σ} {tag key : String} {r : Record β} {into : β → σ}
    {out? : σ → Option β} (hkind : t.kind (.str tag) = .ok (.of tag r into out?))
    (hkey : key ≠ "type") {c : Codec τ} {modify : (τ → τ) → β → β} (hr : r.Bears key c modify)
    {modify' : (τ → τ) → σ → σ} (hinto : ∀ h b, into (modify h b) = modify' h (into b))
    {C : Slots τ} (hC : c.Admits .kept C) :
    t.codec.Admits o (Tagged.inside tag r key modify' C) := by
  rintro j p t' ⟨htag, i, x, q, u, hx, hu, rfl, rfl⟩
  obtain ⟨⟨v, hv⟩, hw⟩ := hC x q u hu
  refine ⟨⟨v, at?_cons_eq_some_iff.mpr ⟨x, hx.child?_eq, hv⟩⟩, fun w => ?_⟩
  exact Tagged.follows hkind htag hx hkey (keepable_put hv _).trans
    fun j i s hj hs => Kind.follows_of (hr.follows hj (hw w)) (hinto (u.set w)) hs

/-- The string at a slot of a text is the one that the value has there, and any other one in its
place is read in its place. -/
theorem exists_cut?_of_ofText (hA : c.Admits .document A) {text : String} {s : σ}
    (h : c.ofText text = .ok s) {t : Slot σ} (ht : A (scan text.toList).1 p t) :
    ∃ before word after v, cut? p text.toList = some (before, word, after) ∧
      text.toList = before ++ (word ++ after) ∧ Spells word v ∧
      at? p (scan text.toList).1 = some (.str v) ∧ t.set v s = s ∧
      ∀ word' w, Spells word' w →
        c.ofText (String.ofList (before ++ (word' ++ after))) = .ok (t.set w s) := by
  obtain ⟨hread, hrest⟩ := ofText_eq_ok_iff.mp h
  obtain ⟨⟨v, hv⟩, hw⟩ := hA _ p t ht
  obtain ⟨before, word, after, hcut, hsplit, hword, hedited⟩ := exists_cut?_of_at? hv
  have hreads : ∀ word' w, Spells word' w →
      c.ofText (String.ofList (before ++ (word' ++ after))) = .ok (t.set w s) := by
    intro word' w hword'
    refine ofText_eq_ok_iff.mpr ?_
    rw [String.toList_ofList, hedited word' w hword']
    exact ⟨hw w s hread, hrest⟩
  refine ⟨before, word, after, v, hcut, hsplit, hword, hv, ?_, hreads⟩
  have hsame := hreads word v hword
  rw [← hsplit, String.ofList_toList, h] at hsame
  exact (Except.ok.inj hsame).symm

end Codec.Admits

end Storyboard
