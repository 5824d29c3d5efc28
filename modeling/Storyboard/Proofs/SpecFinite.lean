import Storyboard.Proofs.Json.Yields
import Storyboard.Proofs.SpecText

set_option autoImplicit false

/-!
Specs that were read. All their numbers are finite, so the text of such a spec is read back as the
same spec: after one pass through the library a document changes no more.
-/

namespace Storyboard

theorem Size.preserves : ∀ f ∈ Size.record.fields, f.Preserves fun s => AllFinite s.reals := by
  simp only [Size.record, List.forall_mem_cons]
  refine ⟨.required .real ?_, .required .real ?_, by simp⟩
  all_goals
    intro x s hx hs
    simp_all [Size.reals]

theorem Point.yields : Point.record.codec.Yields fun p => AllFinite p.reals := by
  refine Record.yields (by decide) ?_
  simp only [Point.record, List.forall_mem_cons]
  refine ⟨.required .real ?_, .required .real ?_, by simp⟩
  all_goals
    intro x p hx hp
    simp_all [Point.reals]

theorem Placing.yields : Placing.record.codec.Yields fun l => AllFinite l.reals := by
  refine Record.yields (by decide) ?_
  simp only [Placing.record, List.forall_mem_cons]
  refine ⟨.defaulted (.any _) fun _ _ _ h => h, .optional (.any _) fun _ _ _ h => h,
    .optional (.any _) fun _ _ _ h => h, .optional Point.yields ?_, by simp⟩
  intro p l hp hl
  simpa [Placing.reals] using hp

theorem Flow.yields : Flow.record.codec.Yields fun l => AllFinite l.reals := by
  refine Record.yields (by decide) ?_
  simp only [Flow.record, List.forall_mem_cons]
  refine ⟨.required (.any _) fun _ _ _ h => h, .optional (.any _) fun _ _ _ h => h,
    .optional (.any _) fun _ _ _ h => h, .optional (.any _) fun _ _ _ h => h,
    .optional (.any _) fun _ _ _ h => h, .optional .real ?_, .optional .real ?_, by simp⟩
  all_goals
    intro x l hx hl
    simp_all [Flow.reals]

theorem ShapePlacing.yields : ShapePlacing.codec.Yields fun l => AllFinite l.reals := by
  refine .iso (.either (.any _) Placing.yields) ?_
  rintro (c | l) h
  · exact allFinite_nil
  · exact h

theorem SvgSource.yields : SvgSource.record.codec.Yields fun s => AllFinite s.size.reals := by
  refine Record.yields (by decide) ?_
  simp only [SvgSource.record, List.forall_mem_append, List.forall_mem_cons, List.forall_mem_map]
  refine ⟨⟨.required (.any _) fun _ _ _ h => h, .required (.any _) fun _ _ _ h => h, by simp⟩, ?_⟩
  exact fun f hf => .within (Size.preserves f hf) (fun _ h => h) fun _ _ h _ => h

theorem ImageSource.yields : ImageSource.record.codec.Yields fun i => AllFinite i.reals := by
  refine Record.yields (by decide) ?_
  simp only [ImageSource.record, List.forall_mem_cons]
  refine ⟨.required (.any _) fun _ _ _ h => h, .required (.any _) fun _ _ _ h => h,
    .optional .real ?_, .optional .real ?_, by simp⟩
  all_goals
    intro x i hx hi
    simp_all [ImageSource.reals]

theorem Sources.yields : Sources.record.codec.Yields fun a => AllFinite a.reals := by
  refine Record.yields (by decide) ?_
  simp only [Sources.record, List.forall_mem_cons]
  refine ⟨.defaulted (.list SvgSource.yields) ?_, .defaulted (.any _) fun _ _ _ h => h,
    .defaulted (.list ImageSource.yields) ?_, by simp⟩
  all_goals
    intro xs a hxs ha
    simp_all [Sources.reals]

theorem Soundtrack.yields : Soundtrack.record.codec.Yields fun t => AllFinite t.reals := by
  refine Record.yields (by decide) ?_
  simp only [Soundtrack.record, List.forall_mem_cons]
  refine ⟨.required (.any _) fun _ _ _ h => h, .optional .real ?_, by simp⟩
  intro x t hx ht
  simpa [Soundtrack.reals] using hx

theorem Picture.yields (name : String) :
    (Picture.record name).codec.Yields fun e => AllFinite e.reals := by
  have hblank : AllFinite (Picture.record "").blank.reals := by decide
  refine Record.yields hblank ?_
  simp only [Picture.record, List.forall_mem_cons]
  refine ⟨.required (.any _) fun _ _ _ h => h, .required Placing.yields ?_, .defaulted .real ?_,
    .required .real ?_, .optional (.any _) fun _ _ _ h => h, by simp⟩
  all_goals
    intro v e hv he
    simp_all [Picture.reals]

theorem TextLine.yields : TextLine.record.codec.Yields fun e => AllFinite e.reals := by
  refine Record.yields (by decide) ?_
  simp only [TextLine.record, List.forall_mem_cons]
  refine ⟨.required (.any _) fun _ _ _ h => h, .required Placing.yields ?_, .defaulted .real ?_,
    .required .real ?_, .optional (.any _) fun _ _ _ h => h, .optional .real ?_,
    .optional (.any _) fun _ _ _ h => h, .optional (.any _) fun _ _ _ h => h, by simp⟩
  all_goals
    intro v e hv he
    simp_all [TextLine.reals]

theorem Figure.yields : Figure.record.codec.Yields fun e => AllFinite e.reals := by
  refine Record.yields (by decide) ?_
  simp only [Figure.record, List.forall_mem_cons]
  refine ⟨.required (.any _) fun _ _ _ h => h, .required ShapePlacing.yields ?_,
    .defaulted .real ?_, .required .real ?_, .optional (.any _) fun _ _ _ h => h,
    .optional (.any _) fun _ _ _ h => h, .optional .real ?_, .optional .real ?_,
    .listed Point.yields ?_, by simp⟩
  all_goals
    intro v e hv he
    simp_all [Figure.reals]

theorem Item.yields : Item.record.codec.Yields fun i => AllFinite i.reals := by
  refine Record.yields (by decide) ?_
  simp only [Item.record, List.forall_mem_cons]
  refine ⟨.required (.any _) fun _ _ _ h => h, .optional (.any _) fun _ _ _ h => h,
    .optional (.any _) fun _ _ _ h => h, .optional (.any _) fun _ _ _ h => h, .optional .real ?_,
    .optional (.any _) fun _ _ _ h => h, .optional (.any _) fun _ _ _ h => h, .optional .real ?_,
    .optional .real ?_, by simp⟩
  all_goals
    intro x i hx hi
    simp_all [Item.reals]

theorem Group.yields : Group.record.codec.Yields fun e => AllFinite e.reals := by
  refine Record.yields (by decide) ?_
  simp only [Group.record, List.forall_mem_cons]
  refine ⟨.required Flow.yields ?_, .defaulted (.list Item.yields) ?_, .defaulted .real ?_,
    .required .real ?_, by simp⟩
  all_goals
    intro v e hv he
    simp_all [Group.reals]

theorem Element.yields : Element.tagged.codec.Yields fun e => AllFinite e.reals := by
  refine Tagged.yields ?_
  simp only [Element.tagged, List.forall_mem_cons]
  exact ⟨Kind.yields_of (Picture.yields _) fun _ h => h, Kind.yields_of TextLine.yields fun _ h => h,
    Kind.yields_of Figure.yields fun _ h => h, Kind.yields_of (Picture.yields _) fun _ h => h,
    Kind.yields_of Group.yields fun _ h => h, by simp⟩

theorem Scene.yields : Scene.record.codec.Yields fun s => AllFinite s.reals := by
  refine Record.yields (by decide) ?_
  simp only [Scene.record, List.forall_mem_cons]
  refine ⟨.required (.any _) fun _ _ _ h => h, .required (.any _) fun _ _ _ h => h,
    .required .real ?_, .required .real ?_, .optional (.any _) fun _ _ _ h => h,
    .optional Soundtrack.yields ?_, .defaulted (.list Element.yields) ?_, by simp⟩
  all_goals
    intro v s hv hs
    simp_all [Scene.reals]

theorem Spec.yields : Spec.record.codec.Yields fun s => AllFinite s.reals := by
  refine Record.yields (by decide) ?_
  simp only [Spec.record, List.forall_mem_cons]
  refine ⟨.required (.any _) fun _ _ _ h => h, .defaulted Sources.yields ?_,
    .defaulted (.list Scene.yields) ?_, by simp⟩
  all_goals
    intro v s hv hs
    simp_all [Spec.reals]

theorem Spec.ofText_eq_ok_iff {text : String} {s : Spec Float} :
    Spec.ofText text = .ok s ↔ Spec.record.codec.ofText text = .ok s :=
  mapError_eq_ok_iff

theorem Spec.ofText_toText {s : Spec Float} (h : ∀ x ∈ s.reals, Json.Rereads x) :
    Spec.ofText s.toText = .ok s :=
  Spec.ofText_eq_ok_iff.mpr (Spec.keeps h).ofText_eq

theorem Spec.allFinite_of_ofText {text : String} {s : Spec Float} (h : Spec.ofText text = .ok s) :
    AllFinite s.reals :=
  Spec.yields.of_ofText (Spec.ofText_eq_ok_iff.mp h)

def Spec.retext (text : String) : Except (Fault Float) String := (Spec.ofText text).map Spec.toText

/-- A spec of finite numbers is read back from its text as it was, provided its numbers are read
back from theirs. All that can be read is such a spec, so a text that is accepted becomes one that
stays as it is. -/
theorem Spec.read_back_and_settles {s : Spec Float}
    (hnumbers : ∀ x ∈ s.reals, x.isFinite = true → Json.Rereads x) :
    (AllFinite s.reals → Spec.ofText s.toText = .ok s) ∧
      ∀ text, Spec.ofText text = .ok s →
        AllFinite s.reals ∧ Spec.retext text = .ok s.toText ∧ Spec.retext s.toText = .ok s.toText := by
  have hback (hfinite : AllFinite s.reals) : Spec.ofText s.toText = .ok s :=
    Spec.ofText_toText fun x hx => hnumbers x hx (hfinite x hx)
  refine ⟨hback, fun text htext => ?_⟩
  have hfinite := Spec.allFinite_of_ofText htext
  refine ⟨hfinite, ?_, ?_⟩
  · rw [Spec.retext, htext]
    rfl
  · rw [Spec.retext, hback hfinite]
    rfl

/-- A spec with an element of every kind, a shape between two anchors and one inside a region, a
polygon, items with all fields and with none, and words that are not the default ones. -/
def Spec.everyForm : Spec Float where
  heading := ⟨"Water \"cycle\"", "1", ⟨1920, 1080⟩, 30, some "#000"⟩
  assets := ⟨[⟨"cloud", "cloud.svg", ⟨200.0, 0.1⟩⟩], [⟨"voice", "voice.mp3"⟩],
    [⟨"photo", "photo.png", none, some 3e-7⟩]⟩
  scenes :=
    let plain : Placing Float := ⟨.center, none, none, none⟩
    let placed : Placing Float := ⟨.topLeft, some .bottomBanner, some .xl, some ⟨-1.5, 1e21⟩⟩
    [{ id := "rain", name := "Rain\n☁", start := -0.0, duration := 2.5, background := none
       audio := none, elements := [] },
     { id := "sky", name := "", start := 2.5, duration := 12.0, background := some "#fff"
       audio := some ⟨"voice", some 0.75⟩
       elements := [
        .svg ⟨"cloud", plain, 0.0, 12.0, some "fadeIn"⟩,
        .text ⟨"Verdunstung", placed, 1.0, 2.0, none, some 32.0, some "Inter", none⟩,
        .shape ⟨.arrow, .between ⟨⟨.full, .left⟩, ⟨.leftThird, .bottomRight⟩⟩, 0.0, 1.0, none, none,
          some 2.0, some 0.001, []⟩,
        .shape ⟨.polygon, .inside placed, 0.0, 1.0, some "#888", some true, none, none,
          [⟨-1.0, 0.0⟩, ⟨1.0, 0.3⟩]⟩,
        .image ⟨"photo", placed, 0.0, 1.0, none⟩,
        .group {
          layout := ⟨.column, some .center, some .spaceEvenly, some .stretch, some .fill, some 8.0,
            none⟩
          items := [⟨.text, none, some "H₂O", some "#00f", some 24.0, some "Inter", some "fade",
            some 0.5, some 1.25⟩, ⟨.svg, none, none, none, none, none, none, none, none⟩]
          start := 1.0
          duration := 3.0 }] }]

theorem Spec.everyForm_settles :
    AllFinite Spec.everyForm.reals ∧
      (∀ x ∈ Spec.everyForm.reals, x.isFinite = true → Json.Rereads x) ∧
      Spec.ofText Spec.everyForm.toText = .ok Spec.everyForm ∧
      Spec.retext Spec.everyForm.toText = .ok Spec.everyForm.toText := by
  have hfinite : AllFinite Spec.everyForm.reals := by decide +kernel
  have hnumbers : ∀ x ∈ Spec.everyForm.reals, x.isFinite = true → Json.Rereads x := by
    decide +kernel
  obtain ⟨hback, hsettles⟩ := Spec.read_back_and_settles hnumbers
  exact ⟨hfinite, hnumbers, hback hfinite, (hsettles _ (hback hfinite)).2.2⟩

end Storyboard
