import Storyboard.Proofs.Json.Given

set_option autoImplicit false

/-!
Records given in part and in any order. A document may give some of the fields that a record writes,
with its entries and those of the objects in them in any order; if the record can do without the
others, it is read as the blank with the given fields changed.
-/

namespace Storyboard
variable {β σ : Type} {P : Float → Prop} {d : Nat}

namespace Json

/-- The same value with the entries of its objects, and of the objects in these, in any order. -/
inductive Reordered : Json → Json → Prop where
  | refl (j : Json) : Reordered j j
  | record {es mid fs : List (String × Json)} (keys : es.map Prod.fst = mid.map Prod.fst)
    (values : List.Forall₂ Reordered (es.map Prod.snd) (mid.map Prod.snd)) (order : mid.Perm fs) :
    Reordered (record es) (record fs)

variable {i j : Json} {es mid fs : List (String × Json)}

namespace Reordered

theorem eq_of_ne_record (h : i.Reordered j) (hi : ∀ es, i ≠ Json.record es) : j = i := by
  cases h with
  | refl => rfl
  | @record es => exact absurd rfl (hi es)

theorem exists_of_record (h : (Json.record es).Reordered j) :
    ∃ mid fs : List (String × Json), j = Json.record fs ∧ es.map Prod.fst = mid.map Prod.fst ∧
      List.Forall₂ Reordered (es.map Prod.snd) (mid.map Prod.snd) ∧ mid.Perm fs := by
  generalize hes : Json.record es = i at h
  cases h with
  | refl => exact ⟨es, es, hes.symm, rfl, List.forall₂_same.mpr fun x _ => refl x, .refl es⟩
  | @record es' mid fs keys values order =>
    rw [record_injective hes]
    exact ⟨mid, fs, rfl, keys, values, order⟩

end Reordered

theorem Written.reordered (h : Written P d i) (hj : i.Reordered j) : Written P d j := by
  induction h generalizing j with
  | @record d es h ih =>
    obtain ⟨mid, fs, rfl, -, values, order⟩ := hj.exists_of_record
    have hmid : ∀ y ∈ mid.map Prod.snd, Written P d y :=
      forall_mem_of_forall₂ values fun x hx y hxy => by
        obtain ⟨e, he, rfl⟩ := List.mem_map.mp hx
        exact ih e he hxy
    exact .record fun e he => hmid e.2 (List.mem_map_of_mem (order.mem_iff.mpr he))
  | bool | int | float | str | arr =>
    rw [hj.eq_of_ne_record (by rintro _ ⟨⟩)]
    constructor <;> assumption

theorem forall₂_under (key : String) (keys : es.map Prod.fst = mid.map Prod.fst)
    (values : List.Forall₂ Reordered (es.map Prod.snd) (mid.map Prod.snd)) :
    List.Forall₂ Reordered (under key (named es)) (under key (named mid)) := by
  induction es generalizing mid with
  | nil =>
    cases mid with
    | nil => exact .nil
    | cons f mid => cases keys
  | cons e es ih =>
    cases mid with
    | nil => cases keys
    | cons f mid =>
      obtain ⟨hkey, keys⟩ := List.cons.inj keys
      obtain ⟨hvalue, values⟩ := List.forall₂_cons.mp values
      change List.Forall₂ Reordered (under key ((some e.1, e.2) :: named es))
        (under key ((some f.1, f.2) :: named mid))
      by_cases h : key = e.1
      · rw [← hkey, ← h, under_cons_self, under_cons_self]
        exact .cons hvalue (ih keys values)
      · rw [under_cons_of_ne h, under_cons_of_ne (hkey ▸ h)]
        exact ih keys values

theorem eq_of_perm_of_length_le_one {γ : Type} {xs ys : List γ} (h : xs.Perm ys)
    (hlength : xs.length ≤ 1) : xs = ys := by
  match xs, hlength with
  | [], _ => exact (List.nil_perm.mp h).symm
  | [x], _ => exact List.singleton_perm.mp h

theorem Reordered.exists_under (h : (Json.record es).Reordered j) :
    ∃ fs, j = Json.record fs ∧ ∀ key, (under key (named es)).length ≤ 1 →
      List.Forall₂ Reordered (under key (named es)) (under key (named fs)) := by
  obtain ⟨mid, fs, rfl, keys, values, order⟩ := h.exists_of_record
  refine ⟨fs, rfl, fun key hlength => ?_⟩
  have hmid := forall₂_under key keys values
  have horder : (under key (named mid)).Perm (under key (named fs)) :=
    ((order.map _).filter _).map _
  rw [hmid.length_eq] at hlength
  rwa [← eq_of_perm_of_length_le_one horder hlength]

theorem under_named_filter (key : String) (keys : List String) (es : List (String × Json)) :
    under key (named (es.filter fun e => e.1 ∈ keys)) =
      if key ∈ keys then under key (named es) else [] := by
  split
  · rename_i hkey
    simp only [under, named, List.filter_map, List.filter_filter, List.map_map]
    refine congrArg _ (List.filter_congr fun e _ => ?_)
    by_cases he : e.1 = key <;> simp [he, hkey]
  · rename_i hkey
    refine under_of_notMem fun hmem => ?_
    obtain ⟨e, he, rfl⟩ := List.mem_map.mp hmem
    exact hkey (of_decide_eq_true (List.mem_filter.mp he).2)

end Json

/-- The codec keeps the value, whatever the order of the entries it is written with. -/
structure Codec.KeepsReordered (c : Codec β) (P : Float → Prop) (d : Nat) (b : β) : Prop where
  written : Json.Written P d (c.write b)
  read_reordered : ∀ o j, (c.write b).Reordered j → c.read o j = .ok b

namespace Codec.KeepsReordered

theorem string (s : String) : Codec.string.KeepsReordered P d s := by
  refine ⟨.str d s, fun o j hj => ?_⟩
  rw [hj.eq_of_ne_record (by rintro _ ⟨⟩)]
  rfl

theorem real {x : Float} (h : P x) : Codec.real.KeepsReordered P d x := by
  refine ⟨.float h, fun o j hj => ?_⟩
  rw [hj.eq_of_ne_record (by rintro _ ⟨⟩)]
  rfl

end Codec.KeepsReordered

/-- The object of those entries that a record writes whose keys are chosen. -/
def Record.excerpt (r : Record σ) (keys : List String) (s : σ) : Json :=
  .record ((r.entries s).filter fun e => e.1 ∈ keys)

/-- A chosen field brings `t` to `u` as it reads what it writes of `s`; another can be left out and
leaves `t` as it is. -/
def Field.Overlays (f : Field σ) (P : Float → Prop) (d : Nat) (keys : List String) (s t u : σ) :
    Prop :=
  ∃ x, f.write s = some x ∧ Json.Written P d x ∧
    (f.key ∈ keys → ∀ o y, x.Reordered y → f.read o y t = .ok u) ∧
      (f.key ∉ keys → f.needed = false ∧ u = t)

inductive Overlays (P : Float → Prop) (d : Nat) (keys : List String) (s : σ) :
    List (Field σ) → σ → σ → Prop where
  | nil (t : σ) : Overlays P d keys s [] t t
  | cons {f : Field σ} {fs : List (Field σ)} {t u v : σ} (h : f.Overlays P d keys s t u)
    (rest : Overlays P d keys s fs u v) : Overlays P d keys s (f :: fs) t v

namespace Overlays
variable {s t v : σ} {fs : List (Field σ)} {keys : List String} {key : String} {c : Codec β}
  {get : σ → β} {set : β → σ → σ}

theorem required (h : c.KeepsReordered P d (get s)) (hkey : key ∈ keys)
    (rest : Overlays P d keys s fs (set (get s) t) v) :
    Overlays P d keys s (.required key c get set :: fs) t v := by
  refine .cons ⟨_, rfl, h.written, fun _ o y hy => ?_, fun hother => absurd hkey hother⟩ rest
  rw [Field.sets_required key c get set o y t, h.read_reordered o y hy]
  rfl

theorem defaulted (h : c.KeepsReordered P d (get s)) (hself : set (get t) t = t)
    (rest : Overlays P d keys s fs (set (if key ∈ keys then get s else get t) t) v) :
    Overlays P d keys s (.defaulted key c get set :: fs) t v := by
  refine .cons ⟨_, rfl, h.written, fun hkey o y hy => ?_, fun hkey => ⟨rfl, ?_⟩⟩ rest
  · have hchosen : (if key ∈ keys then get s else get t) = get s := if_pos hkey
    rw [Field.sets_defaulted key c get set o y t, h.read_reordered o y hy, hchosen]
    rfl
  · exact (congrArg (set · t) (if_neg hkey)).trans hself

theorem gathers (h : Overlays P d keys s fs t v) (o : Origin) (give : String → List Json)
    (hgive : ∀ f ∈ fs, ∀ x, f.write s = some x →
      List.Forall₂ Json.Reordered (if f.key ∈ keys then [x] else []) (give f.key)) :
    Gathers o fs (fs.map fun f => give f.key) t v := by
  induction h with
  | nil t => exact .nil t
  | @cons f fs t u v hf _ ih =>
    rw [List.forall_mem_cons] at hgive
    obtain ⟨x, hx, -, hchosen, hother⟩ := hf
    have hgiven := hgive.1 x hx
    refine .cons ?_ (ih hgive.2)
    change f.Takes o (give f.key) t u
    split at hgiven
    · rename_i hkey
      obtain ⟨y, rest, hy, hrest, hgiven⟩ := List.forall₂_cons_left_iff.mp hgiven
      rw [hgiven, List.forall₂_nil_left_iff.mp hrest]
      exact .given (hchosen hkey o y hy)
    · rename_i hkey
      obtain ⟨hneeded, rfl⟩ := hother hkey
      rw [List.forall₂_nil_left_iff.mp hgiven]
      exact .absent hneeded u

theorem written (h : Overlays P d keys s fs t v) :
    ∀ e ∈ fs.filterMap (fun f => (f.write s).map (f.key, ·)), Json.Written P d e.2 := by
  induction h with
  | nil => simp
  | @cons f fs t u v hf _ ih =>
    obtain ⟨x, hx, hwritten, -⟩ := hf
    rw [List.filterMap_cons_some (by rw [hx]; rfl), List.forall_mem_cons]
    exact ⟨hwritten, ih⟩

end Overlays

namespace Record
variable {r : Record σ} {s v : σ} {keys : List String}

theorem written_excerpt (h : Overlays P d keys s r.fields r.blank v) :
    Json.Written P (d + 1) (r.excerpt keys s) :=
  .record fun e he => h.written e (List.mem_of_mem_filter he)

theorem read_record_eq_ok_iff (hr : r.Lawful) {fs : List (String × Json)}
    (hfs : Json.Written P (d + 1) (Json.record fs)) {o : Origin} :
    r.codec.read o (Json.record fs) = .ok v ↔ Gathers o r.fields
      (r.fields.map fun f => Json.under f.key (Json.named fs)) r.blank v := by
  have hes : ∀ e ∈ Json.named fs, e.1.isSome = true ∧ e.2.whole = true := by
    rw [Json.named, List.forall_mem_map]
    exact fun e he => ⟨rfl, (hfs.of_record e he).whole⟩
  have hall : r.unseen [] = r.fields := by simp [unseen]
  change r.readEntries o (Json.named fs) [] r.blank = .ok v ↔ _
  rw [readEntries_eq_ok_iff hr hes, hall]
  exact and_iff_right (by simp)

/-- A document that gives some of the fields is read as the blank with these fields changed. -/
theorem read_excerpt (hr : r.Lawful) (h : Overlays P d keys s r.fields r.blank v) {j : Json}
    (hj : (r.excerpt keys s).Reordered j) (o : Origin) : r.codec.read o j = .ok v := by
  have hwritten := (written_excerpt h).reordered hj
  obtain ⟨fs, rfl, hunder⟩ := hj.exists_under
  refine (read_record_eq_ok_iff hr hwritten).mpr
    (h.gathers o (fun key => Json.under key (Json.named fs)) ?_)
  intro f hf x hx
  have hgiven : Json.under f.key (Json.named ((r.entries s).filter fun e => e.1 ∈ keys)) =
      if f.key ∈ keys then [x] else [] := by
    rw [Json.under_named_filter, entries, under_filterMap_write hr.nodup hf, hx]
    rfl
  rw [← hgiven]
  refine hunder f.key ?_
  rw [hgiven]
  split <;> simp

theorem read_section (hr : r.Lawful) {v : List String → σ}
    (h : ∀ keys, Overlays P d keys s r.fields r.blank (v keys)) (hnone : v [] = r.blank)
    {chosen : Option (List String)} {vs : List Json}
    (hvs : List.Forall₂ Json.Reordered (chosen.map fun keys => r.excerpt keys s).toList vs)
    (o : Origin) :
    vs = [] ∧ v (chosen.getD []) = r.blank ∨
      ∃ x, vs = [x] ∧ r.codec.read o x = .ok (v (chosen.getD [])) := by
  cases chosen with
  | none => exact .inl ⟨List.forall₂_nil_left_iff.mp hvs, hnone⟩
  | some keys =>
    obtain ⟨y, rest, hy, hrest, rfl⟩ := List.forall₂_cons_left_iff.mp hvs
    rw [List.forall₂_nil_left_iff.mp hrest]
    exact .inr ⟨y, rfl, read_excerpt hr (h keys) hy o⟩

theorem excerpt_of_forall_mem (h : ∀ key ∈ r.fields.map Field.key, key ∈ keys) (s : σ) :
    r.excerpt keys s = r.codec.write s := by
  have hall : (r.entries s).filter (fun e => e.1 ∈ keys) = r.entries s :=
    List.filter_eq_self.mpr fun e he => decide_eq_true (h _ (r.mem_keys_of_mem_entries he))
  rw [excerpt, hall]
  rfl

theorem keepsReordered (hr : r.Lawful)
    (h : Overlays P d (r.fields.map Field.key) s r.fields r.blank s) :
    r.codec.KeepsReordered P (d + 1) s := by
  have hall : r.excerpt (r.fields.map Field.key) s = r.codec.write s :=
    excerpt_of_forall_mem (fun _ hkey => hkey) s
  refine ⟨hall ▸ written_excerpt h, fun o j hj => ?_⟩
  exact read_excerpt hr h (hall.symm ▸ hj) o

end Record
end Storyboard
