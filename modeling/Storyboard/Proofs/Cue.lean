import Storyboard.Proofs.Compiler

set_option autoImplicit false

namespace Storyboard
variable {α : Type}

inductive Subject where
  | svg (asset : String)
  | text (text : String)
  | shape (shape : Shape)
  | image (asset : String)
  | audio (asset : String)
  deriving DecidableEq, Repr

structure Cue (α : Type) where
  subject : Subject
  start : α
  duration : α
  deriving DecidableEq, Repr

def Deed.cue : Deed α → Cue α
  | .svg d => ⟨.svg d.asset, d.start, d.duration⟩
  | .text d => ⟨.text d.text, d.start, d.duration⟩
  | .shape d => ⟨.shape d.shape, d.start, d.duration⟩
  | .image d => ⟨.image d.asset, d.start, d.duration⟩
  | .audio d => ⟨.audio d.asset, d.start, d.duration⟩

@[simp] theorem Deed.cue_start (d : Deed α) : d.cue.start = d.start := by cases d <;> rfl

@[simp] theorem Deed.cue_duration (d : Deed α) : d.cue.duration = d.duration := by cases d <;> rfl

/-- What a group item is about, if it has the field that its kind needs. -/
def Item.subject? (i : Item α) : Option Subject :=
  match i.kind with
  | .svg => i.asset.map .svg
  | .image => i.asset.map .image
  | .text => (i.text.filter (· ≠ "")).map .text

/-- The cue of a group item, counted from the start of the scene. -/
def Item.cue? (g : Group α) (i : Item α) : Option (Cue α) :=
  i.subject?.map (⟨·, i.start.getD g.start, i.duration.getD g.duration⟩)

def Element.cues : Element α → List (Cue α)
  | .svg e => [⟨.svg e.asset, e.start, e.duration⟩]
  | .text e => [⟨.text e.text, e.start, e.duration⟩]
  | .shape e => [⟨.shape e.shape, e.start, e.duration⟩]
  | .image e => [⟨.image e.asset, e.start, e.duration⟩]
  | .group g => g.items.filterMap (Item.cue? g)

theorem map_cue_play (k : Nat) (s : Scene α) (deeds : List (Deed α)) :
    (s.play k deeds).actions.map (fun a => a.deed.cue) = deeds.map Deed.cue := by
  conv_rhs => rw [← map_deed_play k s deeds, List.map_map]
  rfl

variable [Scalar α]

def Cue.after (origin : α) (q : Cue α) : Cue α := { q with start := origin + q.start }

/-- The cue sheet of a scene: its sound for the whole scene, then its elements. -/
def Scene.cues (s : Scene α) : List (Cue α) :=
  (s.audio.map fun t => ⟨.audio t.asset, s.start, s.duration⟩).toList ++
    s.elements.flatMap fun e => e.cues.map (Cue.after s.start)

/-- A compiled scene that leaves the scene of the spec as it is and plays its cue sheet. -/
structure PlayedScene.Plays (p : PlayedScene α) (s : Scene α) : Prop where
  id : p.id = s.id
  name : p.name = s.name
  start : p.start = s.start
  duration : p.duration = s.duration
  background : p.background = s.background
  cues : p.actions.map (fun a => a.deed.cue) = s.cues

namespace Compiler
variable {c : Compiler α} {sizes : Sizes α} {scene : Scene α}

theorem isSome_itemSize? (c : Compiler α) (sizes : Sizes α) (item : Item α) :
    (c.itemSize? sizes item).isSome = item.subject?.isSome := by
  unfold itemSize? Item.subject?
  cases item.kind with
  | svg => simp
  | image => simp
  | text => cases item.text with
    | none => rfl
    | some t => by_cases h : t = "" <;> simp [h, guard, Option.filter]

theorem cue_itemDeed {g : Group α} {item : Item α} {q : Cue α} (f : Fitted α)
    (h : item.cue? g = some q) : (c.itemDeed scene g item f).cue = q.after scene.start := by
  obtain ⟨subject, hs, rfl⟩ := Option.map_eq_some_iff.mp h
  unfold Item.subject? at hs
  unfold itemDeed
  cases hk : item.kind with
  | svg =>
    obtain ⟨asset, ha, rfl⟩ := Option.map_eq_some_iff.mp (by simpa [hk] using hs)
    simp [ha, Deed.cue, SvgDeed.place, Cue.after, Scene.span]
  | image =>
    obtain ⟨asset, ha, rfl⟩ := Option.map_eq_some_iff.mp (by simpa [hk] using hs)
    simp [ha, Deed.cue, imageDeed, Cue.after, Scene.span]
  | text =>
    obtain ⟨text, ht, rfl⟩ := Option.map_eq_some_iff.mp (by simpa only [hk] using hs)
    have ha := (Option.filter_eq_some_iff.mp ht).1
    simp [ha, Deed.cue, textDeed, Cue.after, Scene.span]

/-- Leaving out the items that do not count loses no cue and keeps their order. -/
theorem members_filterMap_cue? (g : Group α) (items : List (Item α)) :
    (c.members sizes items).filterMap (fun m => m.1.cue? g) = items.filterMap (Item.cue? g) := by
  have hcue : ∀ item : Item α,
      (c.itemSize? sizes item).bind (fun _ => item.cue? g) = item.cue? g := by
    intro item
    have h := isSome_itemSize? c sizes item
    cases hs : c.itemSize? sizes item with
    | some size => rfl
    | none =>
      have hn : item.subject? = none := by simpa [hs] using h
      simp [Item.cue?, hn]
  unfold members
  rw [List.filterMap_filterMap]
  simp only [Option.bind_map]
  conv_rhs => rw [← List.zipIdx_map_fst 0 items, List.filterMap_map]
  congr 1
  funext ⟨item, i⟩
  exact hcue item

theorem map_cue_zipWith_itemDeed {g : Group α} {ms : List (Item α × Size α × Nat)}
    {fitted : List (Fitted α)} (hl : ms.length = fitted.length)
    (hm : ∀ m ∈ ms, (m.1.cue? g).isSome) :
    (ms.zipWith (fun m f => c.itemDeed scene g m.1 f) fitted).map Deed.cue =
      (ms.filterMap fun m => m.1.cue? g).map (Cue.after scene.start) := by
  induction ms generalizing fitted with
  | nil => rfl
  | cons m ms ih =>
    cases fitted with
    | nil => simp at hl
    | cons f fitted =>
      obtain ⟨q, hq⟩ := Option.isSome_iff_exists.mp (hm m List.mem_cons_self)
      have hrest := ih (by simpa using hl) fun m hm' => hm m (List.mem_cons_of_mem _ hm')
      simp [hq, cue_itemDeed f hq, hrest]

theorem isSome_cue?_of_mem_members {g : Group α} {m : Item α × Size α × Nat}
    (h : m ∈ c.members sizes g.items) : (m.1.cue? g).isSome := by
  obtain ⟨⟨item, i⟩, -, hm⟩ := List.mem_filterMap.mp h
  obtain ⟨size, hs, rfl⟩ := Option.map_eq_some_iff.mp hm
  have hsome := isSome_itemSize? c sizes item
  rw [hs] at hsome
  simpa [Item.cue?] using hsome.symm

theorem group_cues {g : Group α} {deeds : List (Deed α)}
    (h : c.groupDeeds sizes scene g = .ok deeds) :
    deeds.map Deed.cue = (g.items.filterMap (Item.cue? g)).map (Cue.after scene.start) := by
  obtain ⟨flex, fitted, hflex, ha, rfl⟩ := group_eq_ok_iff.mp h
  have hl : (c.members sizes g.items).length = fitted.length := by
    rw [Stage.length_of_arrange ha]
    exact (mapM_eq_ok_iff.mp hflex).length_eq
  rw [map_cue_zipWith_itemDeed hl fun m => isSome_cue?_of_mem_members, members_filterMap_cue?]

theorem cue_closedDeed (e : Figure α) (f : Fitted α) :
    (Deed.shape (c.closedDeed scene e f)).cue =
      ⟨.shape e.shape, scene.start + e.start, e.duration⟩ := by
  unfold closedDeed
  dsimp only
  split <;> rfl

theorem shape_cue {e : Figure α} {d : ShapeDeed α} (h : c.shape scene e = .ok d) :
    (Deed.shape d).cue = ⟨.shape e.shape, scene.start + e.start, e.duration⟩ := by
  unfold shape at h
  split at h
  · cases h
    rfl
  · obtain ⟨f, -, rfl⟩ := map_eq_ok_iff.mp h
    exact cue_closedDeed e f
  · cases h
  · cases h

theorem element_cues {e : Element α} {deeds : List (Deed α)}
    (h : c.elementDeeds sizes scene e = .ok deeds) :
    deeds.map Deed.cue = e.cues.map (Cue.after scene.start) := by
  cases e with
  | svg e =>
    obtain ⟨d, hd, rfl⟩ := map_eq_ok_iff.mp h
    obtain ⟨f, -, rfl⟩ := map_eq_ok_iff.mp hd
    rfl
  | text e =>
    obtain ⟨d, hd, rfl⟩ := map_eq_ok_iff.mp h
    obtain ⟨box, -, rfl⟩ := map_eq_ok_iff.mp hd
    rfl
  | shape e =>
    obtain ⟨d, hd, rfl⟩ := map_eq_ok_iff.mp h
    exact congrArg (fun q => [q]) (shape_cue hd)
  | image e =>
    obtain ⟨d, hd, rfl⟩ := map_eq_ok_iff.mp h
    obtain ⟨f, -, rfl⟩ := map_eq_ok_iff.mp hd
    rfl
  | group g => exact group_cues h

theorem scene_cues {deeds : List (Deed α)} (h : c.sceneDeeds sizes scene = .ok deeds) :
    deeds.map Deed.cue = scene.cues := by
  obtain ⟨drawn, hdrawn, rfl⟩ := scene_eq_ok_iff.mp h
  have helements : drawn.map (List.map Deed.cue) =
      scene.elements.map fun e => e.cues.map (Cue.after scene.start) := by
    symm
    exact forall₂_map_eq (hdrawn.imp fun _ _ h => (element_cues h).symm)
  rw [List.map_append, List.map_flatten, helements, ← List.flatMap_def]
  unfold Scene.cues
  congr 1
  cases scene.audio <;> rfl

/-- The scenes of a compiled spec are its scenes in order, each with its own cue sheet: no action is
lost, repeated or moved, also where a group leaves items out. -/
theorem compileWith_plays {c : Compiler α} {sizes : Sizes α} {s : Spec α} {p : Project α}
    (h : c.compileWith sizes s = .ok p) : List.Forall₂ PlayedScene.Plays p.scenes s.scenes := by
  refine (forall₂_scenes_of_compileWith h).imp ?_
  rintro _ scene ⟨i, ds, hds, rfl⟩
  exact ⟨rfl, rfl, rfl, rfl, rfl, (map_cue_play i scene ds).trans (scene_cues hds)⟩

end Compiler

/-- A storyboard with elements of every kind, and a group of twelve items of which two lack what
their kind needs. Its scenes are not listed in the order in which they play. -/
def Spec.sample : Spec Rat where
  heading := ⟨"Water cycle", "1", ⟨1920, 1080⟩, 30, none⟩
  assets := ⟨[⟨"cloud", "cloud.svg", ⟨200, 100⟩⟩], [⟨"voice", "voice.mp3"⟩],
    [⟨"photo", "photo.png", none, none⟩]⟩
  scenes :=
    let svg : Item Rat := ⟨.svg, some "cloud", none, none, none, none, none, none, none⟩
    let text (t : String) : Item Rat := ⟨.text, none, some t, none, none, none, none, none, none⟩
    let placing : Placing Rat := ⟨.center, none, none, none⟩
    [{ id := "rain", name := "Rain", start := 6, duration := 2, background := none, audio := none
       elements := [.image ⟨"photo", placing, 1, 1, none⟩] },
     { id := "sky", name := "Sky", start := 0, duration := 6, background := some "#fff"
       audio := some ⟨"voice", some (1 / 2)⟩
       elements := [
        .text ⟨"Evaporation", placing, 0, 2, none, none, none, none⟩,
        .svg ⟨"cloud", placing, 1, 5, none⟩,
        .shape ⟨.arrow, .between ⟨⟨.full, .left⟩, ⟨.full, .right⟩⟩, 2, 1, none, none, none, none,
          []⟩,
        .shape ⟨.circle, .inside placing, 2, 1, none, none, none, none, []⟩,
        .group {
          layout := ⟨.row, none, none, none, some .fill, some 0, none⟩
          items := [svg, { svg with asset := none }, text "H2O", text "",
            { svg with kind := .image, asset := some "photo", start := some 3 }] ++
            List.replicate 6 svg ++ [{ text "end" with duration := some 1 }]
          start := 2
          duration := 3 }] }]

namespace Compiler

theorem sample_plays :
    ∃ p, (plain (α := Rat) ⟨1920, 1080⟩).compile Spec.sample = .ok p ∧
      List.Forall₂ PlayedScene.Plays p.scenes Spec.sample.scenes ∧
      Spec.sample.scenes.map (fun s => s.cues.length) = [1, 15] := by
  have h : ((plain (α := Rat) ⟨1920, 1080⟩).compile Spec.sample).toOption.isSome := by
    decide +kernel
  obtain ⟨p, hp⟩ := isSome_toOption_iff.mp h
  exact ⟨p, hp, compileWith_plays hp, by decide +kernel⟩

end Compiler
end Storyboard
