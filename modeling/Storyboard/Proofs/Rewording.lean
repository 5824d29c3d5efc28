import Storyboard.Compiler
import Storyboard.Proofs.Json.Slot
import Storyboard.Proofs.SpecFinite
import Storyboard.Spec.Issue

set_option autoImplicit false

namespace Storyboard
open Json
variable {o : Origin}

section Layouts

def Placing.slots : Slots (Placing Float) := Placing.record.words [
  .of "position" "center" rfl fun v l => { l with position := v },
  .of "region" "full" rfl fun v l => { l with region := some v },
  .of "size" "auto" rfl fun v l => { l with size := some v }]

def Flow.slots : Slots (Flow Float) := Flow.record.words [
  .of "direction" "column" rfl fun v l => { l with direction := v },
  .of "region" "full" rfl fun v l => { l with region := some v },
  .of "justify" "center" rfl fun v l => { l with justify := some v },
  .of "align" "center" rfl fun v l => { l with align := some v },
  .of "sizing" "fill" rfl fun v l => { l with sizing := some v }]

def Endpoint.slots : Slots Endpoint := Endpoint.record.words [
  .of "region" "full" rfl fun v e => { e with region := v },
  .of "anchor" "center" rfl fun v e => { e with anchor := v }]

def Connection.slots : Slots Connection :=
  (Connection.record.inside "from" (fun f c => { c with source := f c.source }) Endpoint.slots).or
    (Connection.record.inside "to" (fun f c => { c with target := f c.target }) Endpoint.slots)

namespace ShapePlacing

def mapConnection (f : Connection → Connection) : ShapePlacing Float → ShapePlacing Float
  | .between c => .between (f c)
  | l => l

def mapPlacing (f : Placing Float → Placing Float) : ShapePlacing Float → ShapePlacing Float
  | .inside l => .inside (f l)
  | l => l

/-- Which keywords there are depends on which of its forms fits the layout. -/
def slots : Slots (ShapePlacing Float) := fun j p t =>
  match Connection.record.codec.read .kept j with
  | .ok _ => ∃ u, Connection.slots j p u ∧ t = u.lift mapConnection
  | .error _ => ∃ u, Placing.slots j p u ∧ t = u.lift mapPlacing

end ShapePlacing

theorem Placing.admits : Placing.record.codec.Admits o Placing.slots := by
  refine Record.admits_words (by decide) ?_
  simp only [List.forall_mem_cons]
  refine ⟨⟨_, List.mem_of_getElem? (i := 0) rfl, rfl,
      fun _ v w => .defaulted (.keyword v w) fun _ _ => rfl, ?_⟩,
    ⟨_, List.mem_of_getElem? (i := 1) rfl, rfl,
      fun _ v w => .optional (.keyword v w) fun _ _ => rfl, ?_⟩,
    ⟨_, List.mem_of_getElem? (i := 2) rfl, rfl,
      fun _ v w => .optional (.keyword v w) fun _ _ => rfl, ?_⟩, by simp⟩
  all_goals simp [Placing.record, Slot.of]

theorem Flow.admits : Flow.record.codec.Admits o Flow.slots := by
  refine Record.admits_words (by decide) ?_
  simp only [List.forall_mem_cons]
  refine ⟨⟨_, List.mem_of_getElem? (i := 0) rfl, rfl,
      fun _ v w => .required (.keyword v w) fun _ _ => rfl, ?_⟩,
    ⟨_, List.mem_of_getElem? (i := 1) rfl, rfl,
      fun _ v w => .optional (.keyword v w) fun _ _ => rfl, ?_⟩,
    ⟨_, List.mem_of_getElem? (i := 2) rfl, rfl,
      fun _ v w => .optional (.keyword v w) fun _ _ => rfl, ?_⟩,
    ⟨_, List.mem_of_getElem? (i := 3) rfl, rfl,
      fun _ v w => .optional (.keyword v w) fun _ _ => rfl, ?_⟩,
    ⟨_, List.mem_of_getElem? (i := 4) rfl, rfl,
      fun _ v w => .optional (.keyword v w) fun _ _ => rfl, ?_⟩, by simp⟩
  all_goals simp [Flow.record, Slot.of]

theorem Endpoint.admits : Endpoint.record.codec.Admits o Endpoint.slots := by
  refine Record.admits_words (by decide) ?_
  simp only [List.forall_mem_cons]
  refine ⟨⟨_, List.mem_of_getElem? (i := 0) rfl, rfl,
      fun _ v w => .required (.keyword v w) fun _ _ => rfl, ?_⟩,
    ⟨_, List.mem_of_getElem? (i := 1) rfl, rfl,
      fun _ v w => .required (.keyword v w) fun _ _ => rfl, ?_⟩, by simp⟩
  all_goals simp [Endpoint.record, Slot.of]

theorem Connection.admits : Connection.record.codec.Admits o Connection.slots := by
  refine .or (.inside ⟨by decide, ?_, ?_⟩ Endpoint.admits)
    (.inside ⟨by decide, ?_, ?_⟩ Endpoint.admits)
  · exact ⟨_, List.mem_of_getElem? (i := 0) rfl, rfl, fun _ _ _ _ h => .required h fun _ _ => rfl⟩
  · simp [Connection.record]
  · exact ⟨_, List.mem_of_getElem? (i := 1) rfl, rfl, fun _ _ _ _ h => .required h fun _ _ => rfl⟩
  · simp [Connection.record]

theorem Connection.read_arr_of_placing {xs : List Json} {l : Placing Float}
    (h : Placing.record.codec.read o (.arr xs) = .ok l) (c : Connection) :
    Connection.record.codec.read o (.arr xs) ≠ .ok c := by
  intro hc
  cases xs with
  | nil => cases hc
  | cons x xs =>
    obtain ⟨u, hu, -⟩ := bind_eq_ok_iff.mp h
    obtain ⟨v, hv, -⟩ := bind_eq_ok_iff.mp hu
    obtain ⟨c', hc', -⟩ := bind_eq_ok_iff.mp hc
    obtain ⟨e, he, -⟩ := bind_eq_ok_iff.mp hc'
    cases x with
    | str v => cases he
    | _ => cases hv

/-- A layout that is no connection does not become one through a word of its placing. -/
theorem Connection.read_put_of_placing {j : Json} {p : List Nat} {t : Slot (Placing Float)}
    (ht : Placing.slots j p t) (hj : ∀ c, Connection.record.codec.read o j ≠ .ok c) {w : String}
    {l : Placing Float} (hl : Placing.record.codec.read o (put (.str w) p j) = .ok l)
    (c : Connection) : Connection.record.codec.read o (put (.str w) p j) ≠ .ok c := by
  obtain ⟨hmem, i, v, rfl, hv⟩ := ht
  cases j with
  | obj es =>
    have hforeign : t.key ∉ Connection.record.fields.map Field.key := by
      simp only [List.mem_cons, List.not_mem_nil, or_false] at hmem
      rcases hmem with rfl | rfl | rfl <;> decide
    change Connection.record.codec.read o ((Json.obj es).modifyAt i (put (.str w) [])) ≠ .ok c
    rw [Record.read_modifyAt_of_unknown hv hforeign rfl]
    exact hj c
  | arr xs => exact Connection.read_arr_of_placing hl c
  | _ => exact hv.elim

theorem ShapePlacing.admits : ShapePlacing.codec.Admits .kept ShapePlacing.slots := by
  intro j p t ht
  unfold slots at ht
  split at ht
  · rename_i c hc
    obtain ⟨u, hu, rfl⟩ := ht
    obtain ⟨hat, hw⟩ := Connection.admits j p u hu
    refine ⟨hat, fun w => .iso (f := Sum.map (u.set w) id) ?_ ?_⟩
    · exact .either_inl ⟨c, hc⟩ (hw w) fun _ => rfl
    · rintro (c | l) <;> rfl
  · rename_i why hj
    obtain ⟨u, hu, rfl⟩ := ht
    obtain ⟨hat, hw⟩ := Placing.admits j p u hu
    have hj : ∀ c, Connection.record.codec.read .kept j ≠ .ok c := by simp [hj]
    refine ⟨hat, fun w => .iso (f := Sum.map id (u.set w)) ?_ ?_⟩
    · exact .either_inr hj (hw w) (fun l hl => Connection.read_put_of_placing hu hj hl) fun _ => rfl
    · rintro (c | l) <;> rfl

end Layouts

section Elements

def Element.mapSvg (f : Picture Float → Picture Float) : Element Float → Element Float
  | .svg e => .svg (f e)
  | e => e

def Element.mapText (f : TextLine Float → TextLine Float) : Element Float → Element Float
  | .text e => .text (f e)
  | e => e

def Element.mapShape (f : Figure Float → Figure Float) : Element Float → Element Float
  | .shape e => .shape (f e)
  | e => e

def Element.mapImage (f : Picture Float → Picture Float) : Element Float → Element Float
  | .image e => .image (f e)
  | e => e

def Element.mapGroup (f : Group Float → Group Float) : Element Float → Element Float
  | .group e => .group (f e)
  | e => e

def Element.slots : Slots (Element Float) :=
  (Tagged.inside "svg" (Picture.record "SvgElement") "layout"
    (fun f => mapSvg fun e => { e with layout := f e.layout }) Placing.slots).or <|
  (Tagged.inside "text" TextLine.record "layout"
    (fun f => mapText fun e => { e with layout := f e.layout }) Placing.slots).or <|
  (Tagged.inside "shape" Figure.record "layout"
    (fun f => mapShape fun e => { e with layout := f e.layout }) ShapePlacing.slots).or <|
  (Tagged.inside "image" (Picture.record "ImageElement") "layout"
    (fun f => mapImage fun e => { e with layout := f e.layout }) Placing.slots).or <|
  Tagged.inside "group" Group.record "layout"
    (fun f => mapGroup fun e => { e with layout := f e.layout }) Flow.slots

def Scene.slots : Slots (Scene Float) :=
  Scene.record.inside "elements" (fun f s => { s with elements := f s.elements })
    Element.slots.items

def Spec.slots : Slots (Spec Float) :=
  Spec.record.inside "scenes" (fun f s => { s with scenes := f s.scenes }) Scene.slots.items

theorem Picture.bears_layout (name : String) :
    (Picture.record name).Bears "layout" Placing.record.codec
      fun f e => { e with layout := f e.layout } := by
  have hkeys : ((Picture.record "").fields.map Field.key).Nodup := by decide
  refine ⟨hkeys, ?_, by simp [Picture.record]⟩
  exact ⟨_, List.mem_of_getElem? (i := 1) rfl, rfl, fun _ _ _ _ h => .required h fun _ _ => rfl⟩

theorem TextLine.bears_layout :
    TextLine.record.Bears "layout" Placing.record.codec
      fun f e => { e with layout := f e.layout } := by
  refine ⟨by decide, ?_, by simp [TextLine.record]⟩
  exact ⟨_, List.mem_of_getElem? (i := 1) rfl, rfl, fun _ _ _ _ h => .required h fun _ _ => rfl⟩

theorem Figure.bears_layout :
    Figure.record.Bears "layout" ShapePlacing.codec fun f e => { e with layout := f e.layout } := by
  refine ⟨by decide, ?_, by simp [Figure.record]⟩
  exact ⟨_, List.mem_of_getElem? (i := 1) rfl, rfl, fun _ _ _ _ h => .required h fun _ _ => rfl⟩

theorem Group.bears_layout :
    Group.record.Bears "layout" Flow.record.codec fun f e => { e with layout := f e.layout } := by
  refine ⟨by decide, ?_, by simp [Group.record]⟩
  exact ⟨_, List.mem_of_getElem? (i := 0) rfl, rfl, fun _ _ _ _ h => .required h fun _ _ => rfl⟩

theorem Element.admits : Element.tagged.codec.Admits o Element.slots := by
  refine .or (.inside_kind rfl (by decide) (Picture.bears_layout _) ?_ Placing.admits) <|
    .or (.inside_kind rfl (by decide) TextLine.bears_layout ?_ Placing.admits) <|
    .or (.inside_kind rfl (by decide) Figure.bears_layout ?_ ShapePlacing.admits) <|
    .or (.inside_kind rfl (by decide) (Picture.bears_layout _) ?_ Placing.admits) <|
    .inside_kind rfl (by decide) Group.bears_layout ?_ Flow.admits
  all_goals exact fun _ _ => rfl

theorem Scene.admits : Scene.record.codec.Admits o Scene.slots := by
  refine .inside ⟨by decide, ?_, by simp [Scene.record]⟩ Element.admits.items
  exact ⟨_, List.mem_of_getElem? (i := 6) rfl, rfl, fun _ _ _ _ h => .defaulted h fun _ _ => rfl⟩

theorem Spec.admits : Spec.record.codec.Admits o Spec.slots := by
  refine .inside ⟨by decide, ?_, by simp [Spec.record]⟩ Scene.admits.items
  exact ⟨_, List.mem_of_getElem? (i := 2) rfl, rfl, fun _ _ _ _ h => .defaulted h fun _ _ => rfl⟩

end Elements
section Documents

/-- The keywords of layouts: what each is taken for if it is not among the known ones. -/
def Spec.keywords : List (String × String × List String) := [
  ("position", "center", Word.keys Anchor),
  ("region", "full", Word.keys Region),
  ("size", "auto", Word.keys SizeHint),
  ("direction", "column", Word.keys Direction),
  ("justify", "center", Word.keys Justify),
  ("align", "center", Word.keys Align),
  ("sizing", "fill", Word.keys Sizing),
  ("anchor", "center", Word.keys Anchor)]

theorem Placing.slots_among : Placing.slots.Among Spec.keywords := by
  refine .words ?_
  simp [Slot.entry, Slot.of, Spec.keywords]

theorem Flow.slots_among : Flow.slots.Among Spec.keywords := by
  refine .words ?_
  simp [Slot.entry, Slot.of, Spec.keywords]

theorem Connection.slots_among : Connection.slots.Among Spec.keywords := by
  have hends : Endpoint.slots.Among Spec.keywords := by
    refine .words ?_
    simp [Slot.entry, Slot.of, Spec.keywords]
  exact .or (.inside hends) (.inside hends)

theorem ShapePlacing.slots_among : ShapePlacing.slots.Among Spec.keywords := by
  intro j p t ht
  unfold slots at ht
  split at ht
  · obtain ⟨u, hu, rfl⟩ := ht
    exact Connection.slots_among j p u hu
  · obtain ⟨u, hu, rfl⟩ := ht
    exact Placing.slots_among j p u hu

theorem Spec.slots_among : Spec.slots.Among Spec.keywords := by
  refine .inside (.items (.inside (.items ?_)))
  exact .or (.inside_kind Placing.slots_among) <| .or (.inside_kind Placing.slots_among) <|
    .or (.inside_kind ShapePlacing.slots_among) <| .or (.inside_kind Placing.slots_among) <|
    .inside_kind Flow.slots_among

/-- Any string may stand in the place of a keyword of a spec. The document is still read, as the
same spec with the word of that field for the string; and a string that is no key of the field makes
the spec, the issues and the project that its fallback makes. -/
theorem Spec.ofText_reworded {text : String} {s : Spec Float} (h : Spec.ofText text = .ok s)
    {p : List Nat} {t : Slot (Spec Float)} (ht : Spec.slots (scan text.toList).1 p t) :
    t.entry ∈ Spec.keywords ∧
      ∃ before word after v, cut? p text.toList = some (before, word, after) ∧
        text.toList = before ++ (word ++ after) ∧ Spells word v ∧
        at? p (scan text.toList).1 = some (.str v) ∧ t.set v s = s ∧
        ∀ word' w, Spells word' w →
          let edited := String.ofList (before ++ (word' ++ after))
          Spec.ofText edited = .ok (t.set w s) ∧
          (w ∉ t.known → ∀ word'', Spells word'' t.fallback →
            Spec.ofText edited = Spec.ofText (String.ofList (before ++ (word'' ++ after))) ∧
            (t.set w s).issues = (t.set t.fallback s).issues ∧
            ∀ c : Compiler Float, c.compile (t.set w s) = c.compile (t.set t.fallback s)) := by
  obtain ⟨before, word, after, v, hcut, hsplit, hword, hv, hset, hedited⟩ :=
    Spec.admits.exists_cut?_of_ofText (Spec.ofText_eq_ok_iff.mp h) ht
  refine ⟨Spec.slots_among _ p t ht, before, word, after, v, hcut, hsplit, hword, hv, hset, ?_⟩
  intro word' w hw edited
  have hreads : Spec.ofText edited = .ok (t.set w s) :=
    Spec.ofText_eq_ok_iff.mpr (hedited word' w hw)
  refine ⟨hreads, fun hunknown word'' hfallback => ?_⟩
  have hsame : t.set w = t.set t.fallback := t.set_of_unknown w hunknown
  rw [hsame] at hreads ⊢
  exact ⟨hreads.trans (Spec.ofText_eq_ok_iff.mpr (hedited word'' _ hfallback)).symm, rfl,
    fun _ => rfl⟩

theorem Spec.everyForm_reworded :
    Spec.ofText Spec.everyForm.toText = .ok Spec.everyForm ∧
      ∃ before word after, Spec.everyForm.toText.toList = before ++ (word ++ after) ∧
        Spells word "bottom-banner" ∧
        Spec.ofText (String.ofList (before ++ (Quoted.encode "nowhere".toList ++ after))) = .ok
          { Spec.everyForm with
            scenes := Spec.everyForm.scenes.modify 1 fun c =>
              { c with
                elements := c.elements.modify 3 fun _ =>
                  .shape ⟨.polygon, .inside ⟨.topLeft, some .full, some .xl, some ⟨-1.5, 1e21⟩⟩,
                    0.0, 1.0, some "#888", some true, none, none,
                    [⟨-1.0, 0.0⟩, ⟨1.0, 0.3⟩]⟩ } } := by
  have hnumbers : ∀ x ∈ Spec.everyForm.reals, Json.Rereads x := by decide +kernel
  have hread := Spec.ofText_toText hnumbers
  have hscan : (scan Spec.everyForm.toText.toList).1 = Spec.record.codec.write Spec.everyForm :=
    congrArg Prod.fst (scan_pretty (Spec.keeps hnumbers).written)
  let polygon := Placing.record.codec.write
    ⟨.topLeft, some .bottomBanner, some .xl, some ⟨-1.5, 1e21⟩⟩
  let region : Slot (Placing Float) :=
    .of "region" "full" rfl fun v l => { l with region := some v }
  have hregion : Placing.slots polygon [1] region :=
    ⟨.tail _ (.head _), 1, "bottom-banner", rfl, rfl⟩
  have hlayout : ShapePlacing.slots polygon [1] (region.lift ShapePlacing.mapPlacing) :=
    ⟨region, hregion, rfl⟩
  have hslot : Spec.slots (Spec.record.codec.write Spec.everyForm) [2, 1, 6, 3, 2, 1] _ :=
    ⟨2, _, _, _, rfl, ⟨_, 1, _, _, _, rfl, rfl,
      ⟨6, _, _, _, rfl, ⟨_, 3, _, _, _, rfl, rfl,
        .inr (.inr (.inl ⟨.head _, 2, polygon, _, _, rfl, hlayout, rfl, rfl⟩)), rfl, rfl⟩,
        rfl, rfl⟩, rfl, rfl⟩, rfl, rfl⟩
  rw [← hscan] at hslot
  obtain ⟨-, before, word, after, v, -, hsplit, hword, hv, -, hedited⟩ :=
    Spec.ofText_reworded hread hslot
  rw [hscan] at hv
  cases (hv : some (Json.str "bottom-banner") = some (.str v))
  exact ⟨hread, before, word, after, hsplit, hword, (hedited _ "nowhere" (spells_encode _)).1⟩

end Documents
end Storyboard
