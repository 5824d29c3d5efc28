import Storyboard.Proofs.Json.Yields
import Storyboard.Proofs.ProjectText

set_option autoImplicit false

namespace Storyboard

theorem ProjectInfo.yields :
    ProjectInfo.record.codec.Yields fun i => i.duration.isFinite = true := by
  refine Record.yields (by decide) ?_
  simp only [ProjectInfo.record, List.forall_mem_cons]
  exact ⟨.required (.any _) fun _ _ _ h => h, .required (.any _) fun _ _ _ h => h,
    .required (.any _) fun _ _ _ h => h, .required (.any _) fun _ _ _ h => h,
    .required .real fun _ _ hx _ => hx, .optional (.any _) fun _ _ _ h => h, by simp⟩

theorem Asset.yields : Asset.record.codec.Yields fun a => AllFinite a.reals := by
  refine Record.yields (by decide) ?_
  simp only [Asset.record, List.forall_mem_cons]
  refine ⟨.required (.any _) fun _ _ _ h => h, .required (.any _) fun _ _ _ h => h,
    .required (.any _) fun _ _ _ h => h, .optional .real ?_, .optional .real ?_, by simp⟩
  all_goals
    intro x a hx ha
    simp_all [Asset.reals]

theorem AssetTable.yields : AssetTable.record.codec.Yields fun a => AllFinite a.reals := by
  refine Record.yields (by decide) ?_
  simp only [AssetTable.record, List.forall_mem_cons]
  refine ⟨.optional (.list Asset.yields) ?_, .optional (.list Asset.yields) ?_,
    .optional (.list Asset.yields) ?_, .optional (.list Asset.yields) ?_, by simp⟩
  all_goals
    intro xs a hxs ha
    cases xs <;> simp_all [AssetTable.reals]

theorem PixelBox.preserves_within {δ : Type} {Q : δ → Prop} {get : δ → PixelBox}
    {set : PixelBox → δ → δ} (hset : ∀ b d, Q d → Q (set b d)) :
    ∀ f ∈ PixelBox.fields, (Field.within get set f).Preserves Q :=
  fun f _ => .within (.any f) (fun _ _ => trivial) fun b d _ h => hset b d h

theorem SvgDeed.preserves : ∀ f ∈ SvgDeed.fields, f.Preserves fun d => AllFinite d.reals := by
  simp only [SvgDeed.fields, List.forall_mem_append, List.forall_mem_cons, List.forall_mem_map]
  refine ⟨⟨⟨.required (.any _) fun _ _ _ h => h, by simp⟩,
    PixelBox.preserves_within fun _ _ h => h⟩, .required .real ?_,
    .required .real ?_, .required .real ?_, .optional (.any _) fun _ _ _ h => h, by simp⟩
  all_goals
    intro x d hx hd
    simp_all [SvgDeed.reals]

theorem TextDeed.preserves : ∀ f ∈ TextDeed.fields, f.Preserves fun d => AllFinite d.reals := by
  simp only [TextDeed.fields, List.forall_mem_append, List.forall_mem_cons, List.forall_mem_map]
  refine ⟨⟨⟨.required (.any _) fun _ _ _ h => h, by simp⟩,
    PixelBox.preserves_within fun _ _ h => h⟩, .required .real ?_,
    .required (.any _) fun _ _ _ h => h, .required (.any _) fun _ _ _ h => h,
    .required (.any _) fun _ _ _ h => h, .required .real ?_, .required .real ?_, by simp⟩
  all_goals
    intro x d hx hd
    simp_all [TextDeed.reals]

theorem ShapeDeed.preserves : ∀ f ∈ ShapeDeed.fields, f.Preserves fun d => AllFinite d.reals := by
  simp only [ShapeDeed.fields, List.forall_mem_cons]
  refine ⟨.required (.any _) fun _ _ _ h => h, .required (.any _) fun _ _ _ h => h,
    .required (.any _) fun _ _ _ h => h, .optional (.any _) fun _ _ _ h => h,
    .optional (.any _) fun _ _ _ h => h, .optional (.any _) fun _ _ _ h => h,
    .optional (.any _) fun _ _ _ h => h, .optional (.any _) fun _ _ _ h => h,
    .optional (.any _) fun _ _ _ h => h, .required (.any _) fun _ _ _ h => h,
    .required (.any _) fun _ _ _ h => h, .required .real ?_, .optional .real ?_,
    .required .real ?_, .required .real ?_, by simp⟩
  all_goals
    intro x d hx hd
    simp_all [ShapeDeed.reals]

theorem ImageDeed.preserves : ∀ f ∈ ImageDeed.fields, f.Preserves fun d => AllFinite d.reals := by
  simp only [ImageDeed.fields, List.forall_mem_append, List.forall_mem_cons, List.forall_mem_map]
  refine ⟨⟨⟨.required (.any _) fun _ _ _ h => h, by simp⟩,
    PixelBox.preserves_within fun _ _ h => h⟩, .required .real ?_,
    .required (.any _) fun _ _ _ h => h, .required .real ?_, .required .real ?_, by simp⟩
  all_goals
    intro x d hx hd
    simp_all [ImageDeed.reals]

theorem AudioDeed.preserves : ∀ f ∈ AudioDeed.fields, f.Preserves fun d => AllFinite d.reals := by
  simp only [AudioDeed.fields, List.forall_mem_cons]
  refine ⟨.required (.any _) fun _ _ _ h => h, .required .real ?_, .required .real ?_,
    .required .real ?_, by simp⟩
  all_goals
    intro x d hx hd
    simp_all [AudioDeed.reals]

theorem Action.yields_record {δ : Type} {name : String} {blank : δ} {fields : List (Field δ)}
    {Q : δ → Prop} (hblank : Q blank) (h : ∀ f ∈ fields, f.Preserves Q) :
    (Action.record name blank fields).codec.Yields fun a => Q a.2 := by
  refine Record.yields hblank ?_
  simp only [Action.record, List.forall_mem_cons, List.forall_mem_map]
  exact ⟨.required (.any _) fun _ _ _ h => h, fun f hf =>
    .within (h f hf) (fun _ h => h) fun _ _ h _ => h⟩

theorem Action.yields : Action.tagged.codec.Yields fun a => AllFinite a.deed.reals := by
  refine Tagged.yields ?_
  simp only [Action.tagged, List.forall_mem_cons]
  exact ⟨Kind.yields_of (yields_record (by decide) SvgDeed.preserves) fun _ h => h,
    Kind.yields_of (yields_record (by decide) TextDeed.preserves) fun _ h => h,
    Kind.yields_of (yields_record (by decide) ShapeDeed.preserves) fun _ h => h,
    Kind.yields_of (yields_record (by decide) ImageDeed.preserves) fun _ h => h,
    Kind.yields_of (yields_record (by decide) AudioDeed.preserves) fun _ h => h, by simp⟩

theorem PlayedScene.yields : PlayedScene.record.codec.Yields fun s => AllFinite s.reals := by
  refine Record.yields (by decide) ?_
  simp only [PlayedScene.record, List.forall_mem_cons]
  refine ⟨.required (.any _) fun _ _ _ h => h, .required (.any _) fun _ _ _ h => h,
    .required .real ?_, .required .real ?_, .optional (.any _) fun _ _ _ h => h,
    .required (.list Action.yields) ?_, by simp⟩
  all_goals
    intro v s hv hs
    simp_all [PlayedScene.reals]

theorem Project.yields : Project.record.codec.Yields fun p => AllFinite p.reals := by
  refine Record.yields (by decide) ?_
  simp only [Project.record, List.forall_mem_cons]
  refine ⟨.required ProjectInfo.yields ?_, .required AssetTable.yields ?_,
    .required (.list PlayedScene.yields) ?_, by simp⟩
  all_goals
    intro v p hv hp
    simp_all [Project.reals]

theorem Project.ofText_eq_ok_iff {text : String} {p : Project Float} :
    Project.ofText text = .ok p ↔ Project.record.codec.ofText text = .ok p :=
  mapError_eq_ok_iff

theorem Project.allFinite_of_ofText {text : String} {p : Project Float}
    (h : Project.ofText text = .ok p) : AllFinite p.reals :=
  Project.yields.of_ofText (Project.ofText_eq_ok_iff.mp h)

end Storyboard
