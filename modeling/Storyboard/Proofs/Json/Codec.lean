import Storyboard.Json.Tagged
import Storyboard.Proofs.Json.Written
import Storyboard.Proofs.Traversal

set_option autoImplicit false

/-!
Codecs that keep values. What is written of such a value is read back as it was, in a text, set
aside or in memory. A record keeps a value if its fields, read one after the other into the blank
record, restore it.
-/

namespace Storyboard

section Words

class LawfulWord (κ : Type) [Word κ] : Prop where
  ofKey?_key : ∀ w : κ, Word.ofKey? (Word.key w) = some w

theorem Keyword.ofKey_key {κ : Type} [Keyword κ] [LawfulWord κ] (w : κ) :
    Keyword.ofKey (Word.key w) = w := by
  simp [Keyword.ofKey, LawfulWord.ofKey?_key]

end Words

namespace Json
variable {P : Float → Prop} {d : Nat} {j : Json}

theorem wholeItems_eq_all (xs : List Json) : wholeItems xs = xs.all whole := by
  induction xs with
  | nil => rfl
  | cons x xs ih => simp [wholeItems, ih]

theorem wholeEntries_eq_all (es : List (Option String × Json)) :
    wholeEntries es = es.all fun e => e.2.whole := by
  induction es with
  | nil => rfl
  | cons e es ih => simp [wholeEntries, ih]

theorem keepableItems_eq_all (n : Nat) (xs : List Json) :
    keepableItems n xs = xs.all (keepable n) := by
  induction xs with
  | nil => rfl
  | cons x xs ih => simp [keepableItems, ih]

theorem keepableEntries_eq_all (n : Nat) (es : List (Option String × Json)) :
    keepableEntries n es = es.all fun e => e.1.isSome && e.2.keepable n := by
  induction es with
  | nil => rfl
  | cons e es ih => simp [keepableEntries, ih]

theorem Written.whole (h : Written P d j) : j.whole = true := by
  induction h with
  | bool | int | float | str => rfl
  | arr _ ih => simpa [Json.whole, wholeItems_eq_all] using ih
  | record _ ih => simpa [Json.whole, Json.record, wholeEntries_eq_all] using ih

theorem record_injective : Function.Injective record := by
  intro es fs h
  refine List.map_injective_iff.mpr ?_ (Json.obj.inj h)
  intro e e' he
  simpa [Prod.ext_iff] using he

theorem Written.of_record {es : List (String × Json)} (h : Written P (d + 1) (Json.record es)) :
    ∀ e ∈ es, Written P d e.2 := by
  generalize hj : Json.record es = j at h
  cases h with
  | record h => exact record_injective hj ▸ h
  | _ => cases hj

theorem Written.keepable (h : Written P d j) {n : Nat} (hn : d ≤ n) : j.keepable n = true := by
  induction h generalizing n with
  | bool | int | float | str => rfl
  | arr _ ih =>
    obtain ⟨n, rfl⟩ := Nat.exists_eq_add_of_le' (Nat.lt_of_lt_of_le (Nat.succ_pos _) hn)
    simp only [Json.keepable, keepableItems_eq_all, List.all_eq_true]
    exact fun x hx => ih x hx (by omega)
  | record _ ih =>
    obtain ⟨n, rfl⟩ := Nat.exists_eq_add_of_le' (Nat.lt_of_lt_of_le (Nat.succ_pos _) hn)
    simp only [Json.record, Json.keepable, keepableEntries_eq_all, List.all_map, List.all_eq_true]
    intro e he
    simpa using ih e he (by omega)

end Json

variable {α β σ τ : Type} {P : Float → Prop} {d : Nat}

theorem Codec.ofText_eq_ok_iff {c : Codec α} {text : String} {a : α} :
    c.ofText text = .ok a ↔ c.read .document (Json.scan text.toList).1 = .ok a ∧
      ((Json.scan text.toList).2.getD []).all Json.isBlank = true := by
  rw [Codec.ofText, bind_eq_ok_iff]
  constructor
  · rintro ⟨b, hb, h⟩
    split at h
    · rename_i hrest
      cases h
      exact ⟨hb, hrest⟩
    · cases h
  · rintro ⟨ha, hrest⟩
    exact ⟨a, ha, by rw [if_pos hrest]; rfl⟩

/-- The codec keeps the value, and what it writes is nested at most so deep. -/
structure Codec.Keeps (c : Codec α) (P : Float → Prop) (d : Nat) (a : α) : Prop where
  written : Json.Written P d (c.write a)
  read_write : ∀ o, c.read o (c.write a) = .ok a

namespace Codec.Keeps

theorem string (s : String) : Codec.string.Keeps P d s := ⟨.str d s, fun _ => rfl⟩

theorem bool (b : Bool) : Codec.bool.Keeps P d b := ⟨.bool d b, fun _ => rfl⟩

theorem real {x : Float} (h : P x) : Codec.real.Keeps P d x := ⟨.float h, fun _ => rfl⟩

theorem ranged {expected : String} {low high : Int} {make : Int → α} {int : α → Int} {a : α}
    (hlow : low ≤ int a) (hhigh : int a ≤ high) (hmake : make (int a) = a)
    (hmin : Int64.minValue.toInt ≤ low) (hmax : high < UInt64.size) :
    (Codec.ranged expected low high make int).Keeps P d a := by
  refine ⟨.int (Int.le_trans hmin hlow) (Int.lt_of_le_of_lt hhigh hmax), fun o => ?_⟩
  simp only [Codec.ranged, hlow, hhigh, and_self, if_true, hmake]

theorem natural32 (n : UInt32) : Codec.natural32.Keeps P d n := by
  have hn : n.toNat < UInt32.size := n.toNat_lt
  exact ranged (Int.natCast_nonneg _) (by omega) (by simp) (by decide) (by decide)

theorem pixel (n : Pixel) : Codec.pixel.Keeps P d n :=
  ranged n.minValue_le_toInt n.toInt_le (by simp) (by decide) (by decide)

theorem list {c : Codec α} {xs : List α} (h : ∀ x ∈ xs, c.Keeps P d x) :
    c.list.Keeps P (d + 1) xs := by
  refine ⟨.arr ?_, ?_⟩
  · intro j hj
    obtain ⟨x, hx, rfl⟩ := List.mem_map.mp hj
    exact (h x hx).written
  · intro o
    refine mapM_eq_ok_iff.mpr (List.forall₂_map_left_iff.mpr ?_)
    exact List.forall₂_same.mpr fun x hx => (h x hx).read_write o

theorem keyword {κ : Type} [Keyword κ] [LawfulWord κ] (w : κ) :
    (Codec.keyword (κ := κ)).Keeps P d w := by
  refine ⟨.str d _, fun o => ?_⟩
  simp [Codec.keyword, Codec.string, Except.map, Keyword.ofKey_key]

theorem word {κ : Type} [Word κ] [LawfulWord κ] (w : κ) : (Codec.word (κ := κ)).Keeps P d w := by
  refine ⟨.str d _, fun o => ?_⟩
  simp [Codec.word, readWord, pick, LawfulWord.ofKey?_key]

theorem iso {c : Codec α} {there : α → β} {back : β → α} {b : β} (h : c.Keeps P d (back b))
    (hb : there (back b) = b) : (c.iso there back).Keeps P d b := by
  refine ⟨h.written, fun o => ?_⟩
  simp [Codec.iso, h.read_write, Except.map, hb]

theorem either_inl {name : String} {left : Codec α} {right : Codec β} {a : α}
    (h : left.Keeps P d a) : (Codec.either name left right).Keeps P d (.inl a) := by
  refine ⟨h.written, fun o => ?_⟩
  simp [Codec.either, h.read_write]

theorem either_inr {name : String} {left : Codec α} {right : Codec β} {b : β}
    (h : right.Keeps P d b) (hleft : ∀ o, ∃ why, left.read o (right.write b) = .error why) :
    (Codec.either name left right).Keeps P d (.inr b) := by
  refine ⟨h.written, fun o => ?_⟩
  obtain ⟨why, hwhy⟩ := hleft o
  simp [Codec.either, hwhy, h.read_write]

theorem ofText_eq {c : Codec α} {a : α} (h : c.Keeps Json.Rereads d a) :
    c.ofText (c.toText a) = .ok a := by
  refine ofText_eq_ok_iff.mpr ?_
  rw [toText, Json.scan_pretty h.written]
  exact ⟨h.read_write .document, rfl⟩

end Codec.Keeps

/-- What the field writes of `s`, read into `t`, gives `u`. A field that writes nothing may be left
out and leaves `t` as it is. -/
def Field.Restores (f : Field σ) (P : Float → Prop) (d : Nat) (s t u : σ) : Prop :=
  match f.write s with
  | some j => Json.Written P d j ∧ ∀ o, f.read o j t = .ok u
  | none => f.needed = false ∧ u = t

/-- The fields, each read into what those before it gave, bring the blank `t` to `u`. -/
inductive Restores (P : Float → Prop) (d : Nat) (s : σ) : List (Field σ) → σ → σ → Prop where
  | nil (t : σ) : Restores P d s [] t t
  | cons {f : Field σ} {fs : List (Field σ)} {t u v : σ} (h : f.Restores P d s t u)
    (rest : Restores P d s fs u v) : Restores P d s (f :: fs) t v

namespace Restores
variable {s t v : σ} {fs : List (Field σ)} {key : String} {c : Codec β}

theorem required {get : σ → β} {set : β → σ → σ} (h : c.Keeps P d (get s))
    (rest : Restores P d s fs (set (get s) t) v) :
    Restores P d s (.required key c get set :: fs) t v := by
  refine .cons ?_ rest
  refine ⟨h.written, fun o => ?_⟩
  simp [Field.required, h.read_write, bind, Except.bind, pure, Except.pure]

theorem defaulted {get : σ → β} {set : β → σ → σ} (h : c.Keeps P d (get s))
    (rest : Restores P d s fs (set (get s) t) v) :
    Restores P d s (.defaulted key c get set :: fs) t v := by
  refine .cons ?_ rest
  refine ⟨h.written, fun o => ?_⟩
  simp [Field.defaulted, Field.required, h.read_write, bind, Except.bind, pure, Except.pure]

theorem listed {get : σ → List β} {set : List β → σ → σ} (h : c.list.Keeps P d (get s))
    (hblank : set [] t = t) (rest : Restores P d s fs (set (get s) t) v) :
    Restores P d s (.listed key c get set :: fs) t v := by
  refine .cons ?_ rest
  cases hs : get s with
  | nil => simp [Field.Restores, Field.listed, Field.defaulted, Field.required, hs, hblank]
  | cons x xs =>
    rw [hs] at h
    simp only [Field.Restores, Field.listed, Field.defaulted, hs, List.isEmpty_cons,
      Bool.false_eq_true, if_false]
    refine ⟨h.written, fun o => ?_⟩
    simp [Field.required, h.read_write, bind, Except.bind, pure, Except.pure]

theorem optional {get : σ → Option β} {set : Option β → σ → σ}
    (h : ∀ x, get s = some x → c.Keeps P d x) (hblank : set none t = t)
    (rest : Restores P d s fs (set (get s) t) v) :
    Restores P d s (.optional key c get set :: fs) t v := by
  refine .cons ?_ rest
  cases hs : get s with
  | none => simp [Field.Restores, Field.optional, hs, hblank]
  | some x =>
    have hx := h x hs
    simp only [Field.Restores, Field.optional, hs, Option.map_some]
    refine ⟨hx.written, fun o => ?_⟩
    have hread := hx.read_write o
    have hwritten := hx.written
    split
    · rename_i hnull
      rw [hnull] at hwritten
      cases hwritten
    · simp [hread, bind, Except.bind, pure, Except.pure]

theorem append {gs : List (Field σ)} {u : σ} (h : Restores P d s fs t u)
    (rest : Restores P d s gs u v) : Restores P d s (fs ++ gs) t v := by
  induction h with
  | nil => exact rest
  | cons hf _ ih => exact .cons hf (ih rest)

theorem within {get : σ → τ} {set : τ → σ → σ} {gs : List (Field τ)} {u : τ}
    (h : Restores P d (get s) gs (get t) u) (hget : ∀ p r, get (set p r) = p)
    (hset : ∀ p q r, set p (set q r) = set p r) (hself : ∀ r, set (get r) r = r) :
    Restores P d s (gs.map (.within get set)) t (set u t) := by
  generalize hp : get t = p at h
  induction h generalizing t with
  | nil =>
    rw [← hp, hself]
    exact .nil t
  | @cons f gs p q u hf _ ih =>
    have hstep : (Field.within get set f).Restores P d s t (set q t) := by
      unfold Field.Restores at hf ⊢
      simp only [Field.within]
      cases hw : f.write (get s) with
      | none =>
        rw [hw] at hf
        obtain ⟨hneeded, rfl⟩ := hf
        exact ⟨hneeded, by rw [← hp, hself]⟩
      | some j =>
        rw [hw] at hf
        refine ⟨hf.1, fun o => ?_⟩
        simp [hp, hf.2, bind, Except.bind, pure, Except.pure]
    have hrest := ih (hget q t)
    rw [hset] at hrest
    exact .cons hstep hrest

end Restores

namespace Record
variable {r : Record σ} {s : σ}

theorem mem_keys_of_mem_entries (r : Record σ) {s : σ} {e : String × Json} (he : e ∈ r.entries s) :
    e.1 ∈ r.fields.map Field.key := by
  obtain ⟨f, hf, he⟩ := List.mem_filterMap.mp he
  obtain ⟨j, -, rfl⟩ := Option.map_eq_some_iff.mp he
  exact List.mem_map_of_mem hf

theorem written_entries {fs : List (Field σ)} {t u : σ} (h : Restores P d s fs t u) :
    ∀ e ∈ fs.filterMap (fun f => (f.write s).map (f.key, ·)), Json.Written P d e.2 := by
  induction h with
  | nil => simp
  | @cons f fs t u v hf _ ih =>
    intro e he
    obtain ⟨g, hg, hge⟩ := List.mem_filterMap.mp he
    rcases List.mem_cons.mp hg with rfl | hg
    · unfold Field.Restores at hf
      obtain ⟨j, hw, rfl⟩ := Option.map_eq_some_iff.mp hge
      rw [hw] at hf
      exact hf.1
    · exact ih e (List.mem_filterMap.mpr ⟨g, hg, hge⟩)

theorem find?_of_nodup {fs : List (Field σ)} (hkeys : (fs.map Field.key).Nodup) {f : Field σ}
    (hf : f ∈ fs) : fs.find? (fun g => g.key == f.key) = some f := by
  induction fs with
  | nil => simp at hf
  | cons g fs ih =>
    simp only [List.map_cons, List.nodup_cons] at hkeys
    rcases List.mem_cons.mp hf with rfl | hf
    · simp
    · have hne : g.key ≠ f.key := fun h => hkeys.1 (h ▸ List.mem_map_of_mem hf)
      rw [List.find?_cons_of_neg (by simpa using hne)]
      exact ih hkeys.2 hf

theorem find?_eq_none_of_unknown {k : String} (hk : k ∉ r.fields.map Field.key) :
    r.fields.find? (fun f => f.key == k) = none := by
  rw [List.find?_eq_none]
  exact fun f hf heq => hk (List.mem_map.mpr ⟨f, hf, by simpa using heq⟩)

theorem readEntries_cons_eq_ok_iff {o : Origin} {k : String} {x : Json}
    {es : List (Option String × Json)} {seen : List String} {t : σ} :
    r.readEntries o ((some k, x) :: es) seen s = .ok t ↔
      (r.fields.find? (fun f => f.key == k) = none ∧ x.whole = true ∧
        r.readEntries o es seen s = .ok t) ∨
      ∃ f u, r.fields.find? (fun f => f.key == k) = some f ∧ k ∉ seen ∧ f.read o x s = .ok u ∧
        r.readEntries o es (k :: seen) u = .ok t := by
  simp only [readEntries]
  cases r.fields.find? fun f => f.key == k with
  | none => by_cases hx : x.whole = true <;> simp [hx]
  | some f => by_cases hk : k ∈ seen <;> simp [hk, bind_eq_ok_iff]

/-- Reading goes through the entries as they were written, field by field. What was read so far are
the fields of `before` that wrote something, and all that were needed did. -/
theorem readEntries_of_restores (hkeys : (r.fields.map Field.key).Nodup) (o : Origin)
    (before : List (Field σ)) {fs : List (Field σ)} {t u : σ} (h : Restores P d s fs t u)
    (hfields : r.fields = before ++ fs) {seen : List String}
    (hseen : ∀ k ∈ seen, k ∈ before.map Field.key)
    (hneeded : ∀ f ∈ before, f.needed = true → f.key ∈ seen) :
    r.readEntries o (Json.named (fs.filterMap fun f => (f.write s).map (f.key, ·))) seen t =
      .ok u := by
  induction h generalizing before seen with
  | nil t =>
    have hnone : r.fields.find? (fun f => f.needed && !seen.contains f.key) = none := by
      rw [hfields, List.append_nil, List.find?_eq_none]
      intro f hf
      by_cases hn : f.needed = true
      · simp [hneeded f hf hn]
      · simp [hn]
    simp only [List.filterMap_nil, Json.named, List.map_nil, readEntries, hnone]
  | @cons f fs t u v hf rest ih =>
    have hsplit : r.fields = (before ++ [f]) ++ fs := by simp [hfields]
    have hnew : f.key ∉ seen := by
      intro hmem
      rw [hfields, List.map_append, List.nodup_append] at hkeys
      exact hkeys.2.2 _ (hseen _ hmem) f.key (by simp) rfl
    unfold Field.Restores at hf
    cases hw : f.write s with
    | none =>
      rw [hw] at hf
      obtain ⟨hoptional, rfl⟩ := hf
      rw [List.filterMap_cons_none (by simp [hw])]
      refine ih _ hsplit ?_ ?_
      · intro k hk
        simp only [List.map_append, List.mem_append]
        exact .inl (hseen k hk)
      · intro g hg hn
        rcases List.mem_append.mp hg with hg | hg
        · exact hneeded g hg hn
        · obtain rfl := List.mem_singleton.mp hg
          simp [hoptional] at hn
    | some j =>
      rw [hw] at hf
      have hfind := find?_of_nodup hkeys (f := f) (by simp [hfields])
      have hentry : Json.named ((f :: fs).filterMap fun f => (f.write s).map (f.key, ·)) =
          (some f.key, j) :: Json.named (fs.filterMap fun f => (f.write s).map (f.key, ·)) := by
        rw [List.filterMap_cons_some (by rw [hw]; rfl)]
        rfl
      rw [hentry]
      refine readEntries_cons_eq_ok_iff.mpr (.inr ⟨f, u, hfind, hnew, hf.2 o, ih _ hsplit ?_ ?_⟩)
      · intro k hk
        rcases List.mem_cons.mp hk with rfl | hk
        · simp
        · simp only [List.map_append, List.mem_append]
          exact .inl (hseen k hk)
      · intro g hg hn
        rcases List.mem_append.mp hg with hg | hg
        · exact List.mem_cons_of_mem _ (hneeded g hg hn)
        · obtain rfl := List.mem_singleton.mp hg
          exact List.mem_cons_self

theorem keeps (hkeys : (r.fields.map Field.key).Nodup) (h : Restores P d s r.fields r.blank s) :
    r.codec.Keeps P (d + 1) s := by
  refine ⟨.record (written_entries h), fun o => ?_⟩
  exact readEntries_of_restores hkeys o [] h rfl (by simp) (by simp)

theorem read_error_of_missing {es : List (String × Json)} {f : Field σ} (hf : f ∈ r.fields)
    (hneeded : f.needed = true) (hwhole : ∀ e ∈ es, e.2.whole = true)
    (hforeign : ∀ e ∈ es, e.1 ∉ r.fields.map Field.key) (o : Origin) :
    ∃ why, r.codec.read o (Json.record es) = .error why := by
  have hread : r.readEntries o (Json.named es) [] r.blank = r.readEntries o [] [] r.blank := by
    induction es with
    | nil => rfl
    | cons e es ih =>
      have hnone := find?_eq_none_of_unknown (hforeign e (by simp))
      have hcons : Json.named (e :: es) = (some e.1, e.2) :: Json.named es := rfl
      rw [hcons]
      simp only [readEntries, hnone, hwhole e (by simp), if_true]
      exact ih (fun e he => hwhole e (by simp [he])) (fun e he => hforeign e (by simp [he]))
  have hmissing : ∃ g, r.fields.find? (fun f => f.needed && !([] : List String).contains f.key) =
      some g := by
    apply Option.isSome_iff_exists.mp
    rw [List.find?_isSome]
    exact ⟨f, hf, by simp [hneeded]⟩
  obtain ⟨g, hg⟩ := hmissing
  refine ⟨.missingField g.key, ?_⟩
  change r.readEntries o (Json.named es) [] r.blank = _
  rw [hread]
  simp only [readEntries, hg]

end Record

namespace Tagged
variable {t : Tagged σ} {s : σ}

def isKept (e : Option String × Json) : Bool :=
  e.1.any (fun key => key != "type") && e.2.keepable depth

theorem readEntries_some_of_kept {k : Kind σ} {es kept : List (Option String × Json)}
    (hes : es.all isKept = true) :
    t.readEntries es (some k) kept = k.read (.obj (kept.reverse ++ es)) := by
  induction es generalizing kept with
  | nil => simp [readEntries]
  | cons e es ih =>
    obtain ⟨key, x⟩ := e
    simp only [List.all_cons, isKept, Bool.and_eq_true] at hes
    cases key with
    | none => simp at hes
    | some key =>
      have htype : key ≠ "type" := by simpa using hes.1.1
      simp [readEntries, htype, hes.1.2, ih hes.2]

theorem readEntries_of_kept {k : Kind σ} {x : Json} {before after kept : List (Option String × Json)}
    (hes : (before ++ after).all isKept = true) (hk : t.kind x = .ok k) :
    t.readEntries (before ++ (some "type", x) :: after) none kept =
      k.read (.obj (kept.reverse ++ (before ++ after))) := by
  induction before generalizing kept with
  | nil =>
    simp only [List.nil_append, readEntries, if_true, hk, bind, Except.bind]
    exact readEntries_some_of_kept hes
  | cons e before ih =>
    obtain ⟨key, y⟩ := e
    simp only [List.cons_append, List.all_cons, isKept, Bool.and_eq_true] at hes
    cases key with
    | none => simp at hes
    | some key =>
      have htype : key ≠ "type" := by simpa using hes.1.1
      simp [readEntries, htype, hes.1.2, ih hes.2]

theorem readEntries_some_eq_ok_iff {k : Kind σ} {es kept : List (Option String × Json)} :
    t.readEntries es (some k) kept = .ok s ↔
      es.all isKept = true ∧ k.read (.obj (kept.reverse ++ es)) = .ok s := by
  induction es generalizing kept with
  | nil => simp [readEntries]
  | cons e es ih =>
    obtain ⟨key, x⟩ := e
    cases key with
    | none => simp [readEntries, isKept]
    | some key =>
      simp only [readEntries]
      by_cases htype : key = "type"
      · simp [htype, isKept]
      · by_cases hx : x.keepable depth = true
        · simp [htype, hx, isKept, ih]
        · simp [htype, hx, isKept]

theorem readEntries_none_eq_ok_iff {es kept : List (Option String × Json)} :
    t.readEntries es none kept = .ok s ↔
      ∃ before x after k, es = before ++ (some "type", x) :: after ∧
        (before ++ after).all isKept = true ∧ t.kind x = .ok k ∧
        k.read (.obj (kept.reverse ++ (before ++ after))) = .ok s := by
  constructor
  · intro h
    induction es generalizing kept with
    | nil => simp [readEntries] at h
    | cons e es ih =>
      obtain ⟨key, x⟩ := e
      cases key with
      | none => cases h
      | some key =>
        simp only [readEntries] at h
        split at h
        · rename_i htype
          obtain ⟨k, hk, h⟩ := bind_eq_ok_iff.mp h
          obtain ⟨hes, hs⟩ := readEntries_some_eq_ok_iff.mp h
          exact ⟨[], x, es, k, by rw [htype]; rfl, hes, hk, hs⟩
        · rename_i htype
          split at h
          · rename_i hx
            obtain ⟨before, x', after, k, rfl, hes, hk, hs⟩ := ih h
            refine ⟨(some key, x) :: before, x', after, k, rfl, ?_, hk, by simpa using hs⟩
            rw [List.cons_append, List.all_cons, hes]
            simp [isKept, htype, hx]
          · cases h
  · rintro ⟨before, x, after, k, rfl, hes, hk, hs⟩
    exact (readEntries_of_kept hes hk).trans hs

theorem keeps {tag : String} {r : Record β} {into : β → σ} {out? : σ → Option β} {b : β}
    (hwrite : t.kinds.findSome? (fun k => (k.write s).map (k.tag, ·)) = some (tag, r.entries b))
    (hkind : t.kinds.find? (fun k => k.tag == tag) = some (.of tag r into out?))
    (hinto : into b = s) (hkeys : "type" ∉ r.fields.map Field.key)
    (h : r.codec.Keeps P (d + 1) b) (hd : d ≤ depth) : t.codec.Keeps P (d + 1) s := by
  have hentries : ∀ e ∈ r.entries b, Json.Written P d e.2 := h.written.of_record
  have hcodec : t.codec.write s = Json.record (("type", .str tag) :: r.entries b) := by
    change t.write s = _
    simp [write, hwrite]
  refine ⟨?_, fun o => ?_⟩
  · rw [hcodec]
    refine .record ?_
    intro e he
    rcases List.mem_cons.mp he with rfl | he
    · exact .str d tag
    · exact hentries e he
  · rw [hcodec]
    have hk : t.kind (.str tag) = .ok (.of tag r into out?) := by simp [kind, hkind]
    have hread : r.codec.read .kept (.obj (Json.named (r.entries b))) = .ok b := h.read_write .kept
    refine readEntries_none_eq_ok_iff.mpr
      ⟨[], .str tag, Json.named (r.entries b), _, rfl, ?_, hk, ?_⟩
    · rw [List.nil_append, List.all_eq_true, Json.named, List.forall_mem_map]
      intro e he
      have htype : e.1 ≠ "type" := fun heq => hkeys (heq ▸ r.mem_keys_of_mem_entries he)
      simp [isKept, htype, (hentries e he).keepable hd]
    · exact map_eq_ok_iff.mpr ⟨b, hread, hinto⟩

end Tagged
end Storyboard
