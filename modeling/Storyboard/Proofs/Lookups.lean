import Storyboard.Proofs.Assets

set_option autoImplicit false

namespace Storyboard
variable {α : Type}

/-- The font families that an element is measured by. Text in a group is measured by none. -/
def Element.families (d : Defaults α) : Element α → List String
  | .text e => [e.fontFamily.getD d.fontFamily]
  | .svg _ | .shape _ | .image _ | .group _ => []

def Spec.families (d : Defaults α) (s : Spec α) : List String :=
  s.scenes.flatMap fun scene => scene.elements.flatMap (Element.families d)

def Spec.references (s : Spec α) : List (ItemKind × String) :=
  s.scenes.flatMap fun scene => scene.elements.flatMap Element.references

@[simp] theorem Compiler.defaults_withFonts (c : Compiler α) (fonts : FontTable α) :
    (c.withFonts fonts).defaults = c.defaults := rfl

variable [Scalar α]

namespace Compiler
variable {c : Compiler α} {fonts : FontTable α} {sizes₁ sizes₂ : Sizes α} {scene : Scene α}

theorem itemSize?_text {i : Item α} (h : i.kind = .text) :
    (c.withFonts fonts).itemSize? sizes₁ i = c.itemSize? sizes₂ i := by
  unfold itemSize?
  rw [h]
  rfl

theorem itemSize?_congr {i : Item α}
    (h : ∀ kind id, i.reference? = some (kind, id) → sizes₁ id = sizes₂ id) :
    (c.withFonts fonts).itemSize? sizes₁ i = c.itemSize? sizes₂ i := by
  have hasset (hk : i.kind ≠ .text) (standIn : Size α) :
      i.asset.map (fun asset => (sizes₁ asset).getD standIn) =
        i.asset.map fun asset => (sizes₂ asset).getD standIn := by
    cases ha : i.asset with
    | none => rfl
    | some asset =>
      rw [Option.map_some, Option.map_some,
        h i.kind asset (Item.reference?_eq_some_iff.mpr ⟨rfl, hk, ha⟩)]
  cases hk : i.kind with
  | svg => simpa [itemSize?, hk] using hasset (by simp [hk]) c.defaults.assetSize
  | image => simpa [itemSize?, hk] using hasset (by simp [hk]) c.defaults.assetSize
  | text => exact itemSize?_text hk

theorem group_congr {g : Group α}
    (h : ∀ kind id, (kind, id) ∈ (Element.group g).references → sizes₁ id = sizes₂ id) :
    (c.withFonts fonts).groupDeeds sizes₁ scene g = c.groupDeeds sizes₂ scene g := by
  have hmembers : (c.withFonts fonts).members sizes₁ g.items = c.members sizes₂ g.items := by
    unfold members
    apply List.filterMap_congr
    rintro ⟨item, i⟩ hp
    have hi : item ∈ g.items := List.fst_mem_of_mem_zipIdx hp
    have hsize : (c.withFonts fonts).itemSize? sizes₁ item = c.itemSize? sizes₂ item :=
      itemSize?_congr fun kind id href => h kind id (List.mem_filterMap.mpr ⟨item, hi, href⟩)
    simp only [hsize]
  unfold groupDeeds places
  rw [hmembers]
  rfl

theorem element_congr {e : Element α}
    (hfonts : ∀ family ∈ e.families c.defaults,
      fonts.advance family = c.stage.fonts.advance family)
    (hsizes : ∀ kind id, (kind, id) ∈ e.references → sizes₁ id = sizes₂ id) :
    (c.withFonts fonts).elementDeeds sizes₁ scene e = c.elementDeeds sizes₂ scene e := by
  cases e with
  | svg e =>
    have hsize : sizes₁ e.asset = sizes₂ e.asset := hsizes .svg e.asset List.mem_cons_self
    simp only [elementDeeds, svg, hsize]
    rfl
  | image e =>
    have hsize : sizes₁ e.asset = sizes₂ e.asset := hsizes .image e.asset List.mem_cons_self
    simp only [elementDeeds, image, hsize]
    rfl
  | text e =>
    have hadvance := hfonts _ List.mem_cons_self
    simp only [elementDeeds, text, withFonts, Stage.placeText, hadvance]
    rfl
  | shape e => rfl
  | group g => exact group_congr hsizes

theorem scene_congr
    (hfonts : ∀ e ∈ scene.elements, ∀ family ∈ e.families c.defaults,
      fonts.advance family = c.stage.fonts.advance family)
    (hsizes : ∀ e ∈ scene.elements, ∀ kind id, (kind, id) ∈ e.references →
      sizes₁ id = sizes₂ id) :
    (c.withFonts fonts).sceneDeeds sizes₁ scene = c.sceneDeeds sizes₂ scene := by
  unfold sceneDeeds
  rw [mapM_congr fun e he => element_congr (hfonts e he) (hsizes e he)]
  rfl

theorem compileWith_congr {s : Spec α}
    (hfonts : ∀ family ∈ s.families c.defaults,
      fonts.advance family = c.stage.fonts.advance family)
    (hsizes : ∀ r ∈ s.references, sizes₁ r.2 = sizes₂ r.2) :
    (c.withFonts fonts).compileWith sizes₁ s = c.compileWith sizes₂ s := by
  simp only [Spec.families, Spec.references, List.forall_mem_flatMap] at hfonts hsizes
  rw [compileWith_eq, compileWith_eq, mapM_congr fun scene h =>
    scene_congr (hfonts scene h) fun e he kind id hr => hsizes scene h e he (kind, id) hr]

/-- Two compilations on one canvas with one configuration come to the same, project or fault, if
their fonts agree on the families of texts by themselves, and their sizes on the assets that
elements refer to. Shapes, sounds and texts in groups come to the same with any fonts and sizes. -/
theorem compileWith_eq_of_agree (canvas : Canvas) (config : Config α) (fonts₁ fonts₂ : FontTable α)
    (sizes₁ sizes₂ : Sizes α) :
    let c₁ := create canvas fonts₁ config
    let c₂ := create canvas fonts₂ config
    (∀ s : Spec α,
      (∀ family ∈ s.families config.defaults,
        (fonts₁.withUnlistedAdvance config.measures.unlistedAdvance).advance family =
          (fonts₂.withUnlistedAdvance config.measures.unlistedAdvance).advance family) →
      (∀ r ∈ s.references, sizes₁ r.2 = sizes₂ r.2) →
      c₁.compileWith sizes₁ s = c₂.compileWith sizes₂ s) ∧
    (∀ scene e, c₁.shape scene e = c₂.shape scene e) ∧
    (∀ scene t, c₁.soundtrack scene t = c₂.soundtrack scene t) ∧
    ∀ i : Item α, i.kind = .text → c₁.itemSize? sizes₁ i = c₂.itemSize? sizes₂ i ∧
      ∀ scene g f, c₁.itemDeed scene g i f = c₂.itemDeed scene g i f := by
  intro c₁ c₂
  refine ⟨fun s hfonts hsizes => ?_, fun _ _ => rfl, fun _ _ => rfl,
    fun i hi => ⟨itemSize?_text (c := c₂) hi, fun _ _ _ => rfl⟩⟩
  exact compileWith_congr (c := c₂) hfonts hsizes

theorem sample_eq_of_agree :
    let unlisted : FontTable Rat := {}
    let listed := FontTable.standard.insert "Serif" ⟨"fonts/serif.ttf", 2, .bundled⟩
    let sizes₁ : Sizes Rat := fun id => if id = "cloud" then some ⟨200, 100⟩ else none
    let sizes₂ : Sizes Rat := fun id => if id = "photo" then none else some ⟨200, 100⟩
    (∀ family ∈ Spec.sample.families (default : Config Rat).defaults,
      (unlisted.withUnlistedAdvance (default : Measures Rat).unlistedAdvance).advance family =
        (listed.withUnlistedAdvance (default : Measures Rat).unlistedAdvance).advance family) ∧
    (∀ r ∈ Spec.sample.references, sizes₁ r.2 = sizes₂ r.2) ∧
    (create ⟨1920, 1080⟩ unlisted default).compileWith sizes₁ Spec.sample =
      (create ⟨1920, 1080⟩ listed default).compileWith sizes₂ Spec.sample := by
  intro unlisted listed sizes₁ sizes₂
  have hfonts : ∀ family ∈ Spec.sample.families (default : Config Rat).defaults,
      (unlisted.withUnlistedAdvance (default : Measures Rat).unlistedAdvance).advance family =
        (listed.withUnlistedAdvance (default : Measures Rat).unlistedAdvance).advance family := by
    decide +kernel
  have hsizes : ∀ r ∈ Spec.sample.references, sizes₁ r.2 = sizes₂ r.2 := by decide +kernel
  exact ⟨hfonts, hsizes, (compileWith_eq_of_agree ⟨1920, 1080⟩ default unlisted listed sizes₁
    sizes₂).1 Spec.sample hfonts hsizes⟩

end Compiler
end Storyboard
