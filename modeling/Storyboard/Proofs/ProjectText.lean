import Storyboard.Project.Format
import Storyboard.Proofs.Binary64
import Storyboard.Proofs.SpecText

set_option autoImplicit false

namespace Storyboard

instance : LawfulWord AssetKind := ⟨fun w => by cases w <;> rfl⟩

section Reals
variable {α : Type}

def Asset.reals (a : Asset α) : List α := a.width.toList ++ a.height.toList

def AssetTable.reals (a : AssetTable α) : List α :=
  [a.svgs, a.videos, a.audio, a.images].flatMap fun assets =>
    (assets.getD []).flatMap Asset.reals

def SvgDeed.reals (d : SvgDeed α) : List α := [d.scale, d.start, d.duration]

def TextDeed.reals (d : TextDeed α) : List α := [d.fontSize, d.start, d.duration]

def ShapeDeed.reals (d : ShapeDeed α) : List α :=
  [d.strokeWidth, d.start, d.duration] ++ d.arrowHeadSize.toList

def ImageDeed.reals (d : ImageDeed α) : List α := [d.scale, d.start, d.duration]

def AudioDeed.reals (d : AudioDeed α) : List α := [d.volume, d.start, d.duration]

def Deed.reals : Deed α → List α
  | .svg d => d.reals
  | .text d => d.reals
  | .shape d => d.reals
  | .image d => d.reals
  | .audio d => d.reals

def PlayedScene.reals (s : PlayedScene α) : List α :=
  [s.start, s.duration] ++ s.actions.flatMap fun a => a.deed.reals

def Project.reals (p : Project α) : List α :=
  [p.info.duration] ++ p.assets.reals ++ p.scenes.flatMap PlayedScene.reals

end Reals

variable {P : Float → Prop} {d : Nat}

theorem ProjectInfo.keeps {i : ProjectInfo Float} (h : P i.duration) :
    ProjectInfo.record.codec.Keeps P (d + 2) i :=
  Record.keeps (by decide) <|
    .required (.string _) <|
    .required (.string _) <|
    .required (Canvas.keeps _) <|
    .required (.natural32 _) <|
    .required (.real h) <|
    .optional (fun _ _ => .string _) rfl <|
    .nil _

theorem Asset.keeps {a : Asset Float} (h : ∀ x ∈ a.reals, P x) :
    Asset.record.codec.Keeps P (d + 1) a := by
  simp only [Asset.reals, List.forall_mem_append, Option.mem_toList] at h
  obtain ⟨hwidth, hheight⟩ := h
  exact Record.keeps (by decide) <|
    .required (.string _) <|
    .required (.word _) <|
    .required (.string _) <|
    .optional (fun x hx => .real (hwidth x hx)) rfl <|
    .optional (fun x hx => .real (hheight x hx)) rfl <|
    .nil _

theorem AssetTable.keeps {a : AssetTable Float} (h : ∀ x ∈ a.reals, P x) :
    AssetTable.record.codec.Keeps P (d + 3) a := by
  have hlist (assets : Option (List (Asset Float)))
      (hassets : ∀ x ∈ (assets.getD []).flatMap Asset.reals, P x) (xs : List (Asset Float))
      (hxs : assets = some xs) : (Codec.list Asset.record.codec).Keeps P (d + 2) xs := by
    subst hxs
    rw [Option.getD_some, List.forall_mem_flatMap] at hassets
    exact .list fun b hb => Asset.keeps (hassets b hb)
  simp only [AssetTable.reals, List.flatMap_cons, List.flatMap_nil, List.append_nil,
    List.forall_mem_append] at h
  obtain ⟨hsvgs, hvideos, haudio, himages⟩ := h
  exact Record.keeps (by decide) <|
    .optional (hlist _ hsvgs) rfl <|
    .optional (hlist _ hvideos) rfl <|
    .optional (hlist _ haudio) rfl <|
    .optional (hlist _ himages) rfl <|
    .nil _

theorem PixelPoint.keeps (p : PixelPoint) : PixelPoint.record.codec.Keeps P (d + 1) p :=
  Record.keeps (by decide) <|
    .required (.pixel _) <|
    .required (.pixel _) <|
    .nil _

theorem PixelBox.restores (b t : PixelBox) : Restores P d b PixelBox.fields t b :=
  .required (.pixel _) <|
    .required (.pixel _) <|
    .required (.pixel _) <|
    .required (.pixel _) <|
    .nil _

theorem SvgDeed.restores {e : SvgDeed Float} (h : ∀ x ∈ e.reals, P x) :
    Restores P d e SvgDeed.fields ⟨"", ⟨0, 0, 0, 0⟩, 0.0, 0.0, 0.0, none⟩ e := by
  simp only [SvgDeed.reals, List.forall_mem_cons] at h
  obtain ⟨hscale, hstart, hduration, -⟩ := h
  exact .required (.string _) <|
    .append (.within (PixelBox.restores _ _) (fun _ _ => rfl) (fun _ _ _ => rfl) fun _ => rfl) <|
    .required (.real hscale) <|
    .required (.real hstart) <|
    .required (.real hduration) <|
    .optional (fun _ _ => .string _) rfl <|
    .nil _

theorem TextDeed.restores {e : TextDeed Float} (h : ∀ x ∈ e.reals, P x) :
    Restores P d e TextDeed.fields ⟨"", ⟨0, 0, 0, 0⟩, 0.0, "", "", "", 0.0, 0.0⟩ e := by
  simp only [TextDeed.reals, List.forall_mem_cons] at h
  obtain ⟨hfontSize, hstart, hduration, -⟩ := h
  exact .required (.string _) <|
    .append (.within (PixelBox.restores _ _) (fun _ _ => rfl) (fun _ _ _ => rfl) fun _ => rfl) <|
    .required (.real hfontSize) <|
    .required (.string _) <|
    .required (.string _) <|
    .required (.string _) <|
    .required (.real hstart) <|
    .required (.real hduration) <|
    .nil _

theorem ShapeDeed.restores {e : ShapeDeed Float} (h : ∀ x ∈ e.reals, P x) :
    Restores P (d + 2) e ShapeDeed.fields
      ⟨.line, 0, 0, none, none, none, none, none, none, "", false, 0.0, none, 0.0, 0.0⟩ e := by
  simp only [ShapeDeed.reals, List.forall_mem_append, List.forall_mem_cons, Option.mem_toList] at h
  obtain ⟨⟨hwidth, hstart, hduration, -⟩, hhead⟩ := h
  exact .required (.word _) <|
    .required (.pixel _) <|
    .required (.pixel _) <|
    .optional (fun _ _ => .pixel _) rfl <|
    .optional (fun _ _ => .pixel _) rfl <|
    .optional (fun _ _ => .pixel _) rfl <|
    .optional (fun _ _ => .pixel _) rfl <|
    .optional (fun _ _ => .pixel _) rfl <|
    .optional (fun _ _ => .list fun p _ => PixelPoint.keeps p) rfl <|
    .required (.string _) <|
    .required (.bool _) <|
    .required (.real hwidth) <|
    .optional (fun x hx => .real (hhead x hx)) rfl <|
    .required (.real hstart) <|
    .required (.real hduration) <|
    .nil _

theorem ImageDeed.restores {e : ImageDeed Float} (h : ∀ x ∈ e.reals, P x) :
    Restores P d e ImageDeed.fields ⟨"", ⟨0, 0, 0, 0⟩, 0.0, "", 0.0, 0.0⟩ e := by
  simp only [ImageDeed.reals, List.forall_mem_cons] at h
  obtain ⟨hscale, hstart, hduration, -⟩ := h
  exact .required (.string _) <|
    .append (.within (PixelBox.restores _ _) (fun _ _ => rfl) (fun _ _ _ => rfl) fun _ => rfl) <|
    .required (.real hscale) <|
    .required (.string _) <|
    .required (.real hstart) <|
    .required (.real hduration) <|
    .nil _

theorem AudioDeed.restores {e : AudioDeed Float} (h : ∀ x ∈ e.reals, P x) :
    Restores P d e AudioDeed.fields ⟨"", 0.0, 0.0, 0.0⟩ e := by
  simp only [AudioDeed.reals, List.forall_mem_cons] at h
  obtain ⟨hvolume, hstart, hduration, -⟩ := h
  exact .required (.string _) <|
    .required (.real hvolume) <|
    .required (.real hstart) <|
    .required (.real hduration) <|
    .nil _

theorem Action.record_keeps {δ : Type} {name : String} {blank deed : δ} {fields : List (Field δ)}
    (hkeys : ("id" :: fields.map Field.key).Nodup) (h : Restores P d deed fields blank deed)
    (id : String) : (Action.record name blank fields).codec.Keeps P (d + 1) (id, deed) := by
  refine Record.keeps ?_ <| .required (.string _) ?_
  · simpa [Action.record, Field.required, Field.within, Function.comp_def] using hkeys
  · exact .within h (fun _ _ => rfl) (fun _ _ _ => rfl) (fun _ => rfl)

theorem Action.keeps {a : Action Float} (h : ∀ x ∈ a.deed.reals, P x) :
    Action.tagged.codec.Keeps P 3 a := by
  obtain ⟨id, deed⟩ := a
  cases deed with
  | svg e =>
    exact Tagged.keeps rfl rfl rfl (by decide)
      (record_keeps (by decide) (SvgDeed.restores h) id) (by decide)
  | text e =>
    exact Tagged.keeps rfl rfl rfl (by decide)
      (record_keeps (by decide) (TextDeed.restores h) id) (by decide)
  | shape e =>
    exact Tagged.keeps rfl rfl rfl (by decide)
      (record_keeps (by decide) (ShapeDeed.restores h) id) (by decide)
  | image e =>
    exact Tagged.keeps rfl rfl rfl (by decide)
      (record_keeps (by decide) (ImageDeed.restores h) id) (by decide)
  | audio e =>
    exact Tagged.keeps rfl rfl rfl (by decide)
      (record_keeps (by decide) (AudioDeed.restores h) id) (by decide)

theorem PlayedScene.keeps {s : PlayedScene Float} (h : ∀ x ∈ s.reals, P x) :
    PlayedScene.record.codec.Keeps P 5 s := by
  simp only [PlayedScene.reals, List.forall_mem_append, List.forall_mem_cons,
    List.forall_mem_flatMap] at h
  obtain ⟨⟨hstart, hduration, -⟩, hactions⟩ := h
  exact Record.keeps (by decide) <|
    .required (.string _) <|
    .required (.string _) <|
    .required (.real hstart) <|
    .required (.real hduration) <|
    .optional (fun _ _ => .string _) rfl <|
    .required (.list fun a ha => Action.keeps (hactions a ha)) <|
    .nil _

theorem Project.keeps {p : Project Float} (h : ∀ x ∈ p.reals, P x) :
    Project.record.codec.Keeps P 7 p := by
  simp only [Project.reals, List.forall_mem_append, List.forall_mem_cons, List.forall_mem_flatMap]
    at h
  obtain ⟨⟨⟨hduration, -⟩, hassets⟩, hscenes⟩ := h
  exact Record.keeps (by decide) <|
    .required (ProjectInfo.keeps hduration) <|
    .required (AssetTable.keeps hassets) <|
    .required (.list fun s hs => PlayedScene.keeps (hscenes s hs)) <|
    .nil _

/-- A project of finite numbers is read back from its text as it was, provided the numbers are read
back from theirs. -/
theorem Project.read_back_of_finite {p : Project Float} (hfinite : AllFinite p.reals)
    (hnumbers : ∀ x ∈ p.reals, x.isFinite = true → Json.Rereads x) :
    Project.ofText p.toText = .ok p := by
  have hkeeps := Project.keeps fun x hx => hnumbers x hx (hfinite x hx)
  simp only [Project.ofText, Project.toText, hkeeps.ofText_eq, Except.mapError]

/-- A project with an action of every kind, an empty list of assets beside a missing one, and texts
that need escapes. -/
def Project.sample : Project Float where
  info := ⟨"Water \"cycle\"", "1", ⟨1920, 1080⟩, 30, 12.5, none⟩
  assets := ⟨some [⟨"cloud", .svg, "cloud.svg", some 200.0, some 0.1⟩], none, some [], none⟩
  scenes := [{
    id := "sky"
    name := "Sky\n"
    start := 0.0
    duration := 12.5
    background := some "#fff"
    actions := [
      ⟨"audio_1", .audio ⟨"voice", 0.75, 0.0, 12.5⟩⟩,
      ⟨"svg_2", .svg ⟨"cloud", ⟨-40, 10, 200, 100⟩, 1.5, 0.0, 3.0, some "fadeIn"⟩⟩,
      ⟨"text_3", .text ⟨"Verdunstung ☁", ⟨0, 0, 640, 48⟩, 32.0, "Inter", "#000", "fade", -0.0, 3.0⟩⟩,
      ⟨"shape_4", .shape ⟨.polygon, 960, 540, none, none, none, none, none,
        some [⟨-1, 0⟩, ⟨1, 0⟩], "#888", true, 2.0, some 0.001, 1.0, 3.0⟩⟩,
      ⟨"image_5", .image ⟨"photo", ⟨960, 540, 1920, 1080⟩, 0.3, "none", 1e21, 3.0⟩⟩] }]

theorem Project.sample_read_back :
    AllFinite Project.sample.reals ∧
      (∀ x ∈ Project.sample.reals, x.isFinite = true → Json.Rereads x) ∧
      Project.ofText Project.sample.toText = .ok Project.sample := by
  have hfinite : AllFinite Project.sample.reals := by decide +kernel
  have hnumbers : ∀ x ∈ Project.sample.reals, x.isFinite = true → Json.Rereads x := by
    decide +kernel
  exact ⟨hfinite, hnumbers, Project.read_back_of_finite hfinite hnumbers⟩

end Storyboard
