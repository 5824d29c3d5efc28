import Storyboard.Proofs.Json.Codec
import Storyboard.Proofs.Json.Sound

set_option autoImplicit false

namespace Storyboard
open Json
variable {α β σ τ : Type} {R : β → Prop} {Q : σ → Prop}

/-- Whatever the codec reads from a sound value meets the condition. -/
def Codec.Yields (c : Codec β) (R : β → Prop) : Prop :=
  ∀ (o : Origin) (j : Json) (b : β), Sound j → c.read o j = .ok b → R b

namespace Codec.Yields

theorem any (c : Codec β) : c.Yields fun _ => True := fun _ _ _ _ _ => trivial

theorem real : Codec.real.Yields fun x => x.isFinite = true := by
  intro o j x hj hx
  cases hj with
  | float h =>
    cases hx
    exact h
  | int h =>
    cases hx
    exact Binary64.isFinite_ofInt h
  | _ => cases hx

theorem list {c : Codec β} (h : c.Yields R) : c.list.Yields fun xs => ∀ x ∈ xs, R x := by
  intro o j bs hj hbs
  cases hj with
  | arr hxs =>
    have hread := mapM_eq_ok_iff.mp hbs
    clear hbs
    induction hread with
    | nil => simp
    | cons hb _ ih =>
      rw [List.forall_mem_cons] at hxs ⊢
      exact ⟨h _ _ _ hxs.1 hb, ih hxs.2⟩
  | _ => cases hbs

theorem either {name : String} {left : Codec α} {right : Codec β} {L : α → Prop}
    (hl : left.Yields L) (hr : right.Yields R) :
    (Codec.either name left right).Yields (Sum.elim L R) := by
  intro o j s hj hs
  simp only [Codec.either] at hs
  split at hs
  · rename_i a ha
    cases hs
    exact hl _ _ _ hj ha
  · rename_i b _ hb
    cases hs
    exact hr _ _ _ hj hb
  · cases hs

theorem iso {c : Codec α} {L : α → Prop} {there : α → β} {back : β → α} (h : c.Yields L)
    (hthere : ∀ a, L a → R (there a)) : (c.iso there back).Yields R := by
  intro o j b hj hb
  obtain ⟨a, ha, rfl⟩ := map_eq_ok_iff.mp hb
  exact hthere a (h _ _ _ hj ha)

theorem of_ofText {c : Codec β} (h : c.Yields R) {text : String} {b : β}
    (hb : c.ofText text = .ok b) : R b :=
  h _ _ _ (sound_scan text.toList) (ofText_eq_ok_iff.mp hb).1

end Codec.Yields

def Field.Preserves (f : Field σ) (Q : σ → Prop) : Prop :=
  ∀ (o : Origin) (j : Json) (s t : σ), Sound j → f.read o j s = .ok t → Q s → Q t

namespace Field.Preserves
variable {key : String} {c : Codec β}

theorem any (f : Field σ) : f.Preserves fun _ => True := fun _ _ _ _ _ _ _ => trivial

theorem required {get : σ → β} {set : β → σ → σ} (h : c.Yields R)
    (hset : ∀ b s, R b → Q s → Q (set b s)) : (Field.required key c get set).Preserves Q := by
  intro o j s t hj ht hs
  obtain ⟨b, hb, ht⟩ := bind_eq_ok_iff.mp ht
  cases ht
  exact hset b s (h _ _ _ hj hb) hs

theorem defaulted {get : σ → β} {set : β → σ → σ} (h : c.Yields R)
    (hset : ∀ b s, R b → Q s → Q (set b s)) : (Field.defaulted key c get set).Preserves Q :=
  show (Field.required key c get set).Preserves Q from required h hset

theorem listed {get : σ → List β} {set : List β → σ → σ} (h : c.Yields R)
    (hset : ∀ bs s, (∀ b ∈ bs, R b) → Q s → Q (set bs s)) :
    (Field.listed key c get set).Preserves Q :=
  show (Field.required key c.list get set).Preserves Q from required (.list h) hset

theorem optional {get : σ → Option β} {set : Option β → σ → σ} (h : c.Yields R)
    (hset : ∀ b s, (∀ x ∈ b, R x) → Q s → Q (set b s)) :
    (Field.optional key c get set).Preserves Q := by
  intro o j s t hj ht hs
  simp only [Field.optional] at ht
  split at ht
  · cases ht
    exact hset none s (by simp) hs
  · obtain ⟨b, hb, ht⟩ := bind_eq_ok_iff.mp ht
    cases ht
    exact hset (some b) s (by simpa using h _ _ _ hj hb) hs

theorem within {get : σ → τ} {set : τ → σ → σ} {f : Field τ} {T : τ → Prop} (h : f.Preserves T)
    (hget : ∀ s, Q s → T (get s)) (hset : ∀ b s, T b → Q s → Q (set b s)) :
    (Field.within get set f).Preserves Q := by
  intro o j s t hj ht hs
  obtain ⟨b, hb, ht⟩ := bind_eq_ok_iff.mp ht
  cases ht
  exact hset b s (h _ _ _ _ hj hb (hget s hs)) hs

end Field.Preserves

namespace Record
variable {r : Record σ}

theorem preserves_readItems (o : Origin) {fs : List (Field σ)} (hfs : ∀ f ∈ fs, f.Preserves Q)
    {i : Nat} {xs : List Json} (hxs : ∀ x ∈ xs, Sound x) {s t : σ} (hs : Q s)
    (ht : r.readItems o fs i xs s = .ok t) : Q t := by
  induction fs generalizing i xs s with
  | nil =>
    cases xs with
    | nil =>
      cases ht
      exact hs
    | cons x xs => cases ht
  | cons f fs ih =>
    rw [List.forall_mem_cons] at hfs
    cases xs with
    | nil =>
      simp only [readItems] at ht
      split at ht
      · cases ht
      · exact ih hfs.2 hxs hs ht
    | cons x xs =>
      rw [List.forall_mem_cons] at hxs
      obtain ⟨u, hu, ht⟩ := bind_eq_ok_iff.mp ht
      exact ih hfs.2 hxs.2 (hfs.1 _ _ _ _ hxs.1 hu hs) ht

theorem preserves_readEntries (o : Origin) (hfields : ∀ f ∈ r.fields, f.Preserves Q)
    {es : List (Option String × Json)} (hes : ∀ e ∈ es, Sound e.2) {seen : List String} {s t : σ}
    (hs : Q s) (ht : r.readEntries o es seen s = .ok t) : Q t := by
  induction es generalizing seen s with
  | nil =>
    simp only [readEntries] at ht
    split at ht
    · cases ht
    · cases ht
      exact hs
  | cons e es ih =>
    obtain ⟨k, x⟩ := e
    rw [List.forall_mem_cons] at hes
    cases k with
    | none => cases ht
    | some k =>
      rcases readEntries_cons_eq_ok_iff.mp ht with ⟨-, -, ht⟩ | ⟨f, u, hf, -, hu, ht⟩
      · exact ih hes.2 hs ht
      · exact ih hes.2 (hfields f (List.mem_of_find?_eq_some hf) _ _ _ _ hes.1 hu hs) ht

/-- What holds of the blank and is preserved by every field holds of all that is read. -/
theorem yields (hblank : Q r.blank) (hfields : ∀ f ∈ r.fields, f.Preserves Q) :
    r.codec.Yields Q := by
  intro o j s hj hs
  cases hj with
  | obj hes => exact preserves_readEntries o hfields hes hblank hs
  | arr hxs => exact preserves_readItems o hfields hxs hblank hs
  | _ => cases hs

end Record

def Kind.Yields (k : Kind σ) (Q : σ → Prop) : Prop :=
  ∀ (j : Json) (s : σ), Sound j → k.read j = .ok s → Q s

theorem Kind.yields_of {tag : String} {r : Record β} {into : β → σ} {out? : σ → Option β}
    (h : r.codec.Yields R) (hinto : ∀ b, R b → Q (into b)) : (Kind.of tag r into out?).Yields Q := by
  intro j s hj hs
  obtain ⟨b, hb, rfl⟩ := map_eq_ok_iff.mp hs
  exact hinto b (h _ _ _ hj hb)

namespace Tagged
variable {t : Tagged σ}

theorem mem_kinds_of_kind {j : Json} {k : Kind σ} (h : t.kind j = .ok k) : k ∈ t.kinds := by
  unfold kind at h
  split at h
  · split at h
    · rename_i hk
      cases h
      exact List.mem_of_find?_eq_some hk
    · cases h
  · cases h

theorem yields (hkinds : ∀ k ∈ t.kinds, k.Yields Q) : t.codec.Yields Q := by
  intro o j s hj hs
  cases hj with
  | obj hes =>
    obtain ⟨before, x, after, k, rfl, -, hk, hs⟩ := readEntries_none_eq_ok_iff.mp hs
    -- what was set aside is as sound as it stood in the text
    have hkept : ∀ e ∈ before ++ after, Sound e.2 := by
      intro e he
      exact hes e (by simp only [List.mem_append, List.mem_cons] at he ⊢; tauto)
    exact hkinds k (mem_kinds_of_kind hk) _ _ (.obj hkept) hs
  | @arr xs hxs =>
    cases xs with
    | nil => cases hs
    | cons x xs =>
      obtain ⟨k, hk, hs⟩ := bind_eq_ok_iff.mp hs
      rw [List.forall_mem_cons] at hxs
      split at hs
      · exact hkinds k (mem_kinds_of_kind hk) _ _ (.arr hxs.2) hs
      · cases hs
  | _ => cases hs

end Tagged
end Storyboard
