import Storyboard.Proofs.Assets

set_option autoImplicit false

namespace Storyboard
variable {α : Type}

def Deed.asset? : Deed α → Option (AssetKind × String)
  | .svg d => some (.svg, d.asset)
  | .image d => some (.image, d.asset)
  | .audio d => some (.audio, d.asset)
  | .text _ | .shape _ => none

def Subject.asset? : Subject → Option (AssetKind × String)
  | .svg asset => some (.svg, asset)
  | .image asset => some (.image, asset)
  | .audio asset => some (.audio, asset)
  | .text _ | .shape _ => none

theorem Deed.asset?_cue (d : Deed α) : d.cue.subject.asset? = d.asset? := by cases d <;> rfl

/-- The assets listed for the declarations of a kind: one for each of them, in their order. Where
nothing is declared the list is absent. -/
structure Lists {β : Type} (entry : β → Asset α) (declared : List β)
    (listed : Option (List (Asset α))) : Prop where
  absent : listed = none ↔ declared = []
  entries : List.Forall₂ (fun d asset => asset = entry d) declared (listed.getD [])

namespace AssetTable

def ofKind (t : AssetTable α) : AssetKind → Option (List (Asset α))
  | .svg => t.svgs
  | .video => t.videos
  | .audio => t.audio
  | .image => t.images

def Has (t : AssetTable α) (kind : AssetKind) (id : String) : Prop :=
  ∃ listed, t.ofKind kind = some listed ∧ ∃ asset ∈ listed, asset.id = id

structure ListsAll (t : AssetTable α) (a : Sources α) : Prop where
  svgs : Lists (fun svg => {
    id := svg.id, kind := .svg, url := svg.url
    width := some svg.size.width, height := some svg.size.height }) a.svgs t.svgs
  audio : Lists (fun audio => {
    id := audio.id, kind := .audio, url := audio.url, width := none, height := none })
    a.audio t.audio
  images : Lists (fun image => {
    id := image.id, kind := .image, url := image.url
    width := image.width, height := image.height }) a.images t.images
  videos : t.videos = none

end AssetTable

/-- Whether an asset of the id is declared for the kind. There are no declarations of videos. -/
def Sources.declaresKind (a : Sources α) : AssetKind → String → Bool
  | .svg, id => a.declaresSvg id
  | .image, id => a.declaresImage id
  | .audio, id => a.declaresAudio id
  | .video, _ => false

section Lists
variable {β : Type} {entry : β → Asset α} {declared : List β} {listed : Option (List (Asset α))}

theorem lists_map (entry : β → Asset α) (declared : List β) :
    Lists entry declared
      (if (declared.map entry).isEmpty then none else some (declared.map entry)) := by
  cases declared with
  | nil => exact ⟨by simp, .nil⟩
  | cons d rest =>
    refine ⟨by simp, ?_⟩
    exact List.forall₂_map_right_iff.mpr (List.forall₂_same.mpr fun _ _ => rfl)

theorem Lists.exists_of_any (h : Lists entry declared listed) {name : β → String}
    (hname : ∀ d, (entry d).id = name d) {id : String} (hd : declared.any (name · == id) = true) :
    ∃ assets, listed = some assets ∧ ∃ asset ∈ assets, asset.id = id := by
  obtain ⟨d, hmem, hid⟩ := List.any_eq_true.mp hd
  have hmap : declared.map entry = listed.getD [] := by
    rw [← List.map_id (listed.getD [])]
    exact forall₂_map_eq (h.entries.imp fun _ _ heq => heq.symm)
  have hasset : entry d ∈ listed.getD [] := hmap ▸ List.mem_map_of_mem hmem
  cases listed with
  | none => simp at hasset
  | some assets => exact ⟨assets, rfl, entry d, hasset, (hname d).trans (beq_iff_eq.mp hid)⟩

end Lists

namespace AssetTable

theorem listsAll_ofSources (a : Sources α) : (ofSources a).ListsAll a where
  svgs := lists_map _ a.svgs
  audio := lists_map _ a.audio
  images := lists_map _ a.images
  videos := rfl

theorem ListsAll.has {t : AssetTable α} {a : Sources α} (h : t.ListsAll a) {kind : AssetKind}
    {id : String} (hd : a.declaresKind kind id = true) : t.Has kind id := by
  cases kind with
  | svg => exact h.svgs.exists_of_any (fun _ => rfl) hd
  | image => exact h.images.exists_of_any (fun _ => rfl) hd
  | audio => exact h.audio.exists_of_any (fun _ => rfl) hd
  | video => cases hd

end AssetTable

theorem Item.reference?_of_asset? {i : Item α} {subject : Subject} {kind : AssetKind} {id : String}
    (hs : i.subject? = some subject) (ha : subject.asset? = some (kind, id)) :
    ∃ itemKind, i.reference? = some (itemKind, id) ∧
      ∀ a : Sources α, a.declares itemKind id = a.declaresKind kind id := by
  unfold subject? at hs
  cases hk : i.kind with
  | svg =>
    obtain ⟨asset, hasset, rfl⟩ := Option.map_eq_some_iff.mp (by simpa [hk] using hs)
    cases ha
    exact ⟨.svg, by simp [reference?, hk, hasset], fun _ => rfl⟩
  | image =>
    obtain ⟨asset, hasset, rfl⟩ := Option.map_eq_some_iff.mp (by simpa [hk] using hs)
    cases ha
    exact ⟨.image, by simp [reference?, hk, hasset], fun _ => rfl⟩
  | text =>
    obtain ⟨text, -, rfl⟩ := Option.map_eq_some_iff.mp (by simpa only [hk] using hs)
    cases ha

theorem Element.declaresKind_of_mem_cues {a : Sources α} {e : Element α}
    (hd : ∀ kind id, (kind, id) ∈ e.references → a.declares kind id = true) {q : Cue α}
    (hq : q ∈ e.cues) {kind : AssetKind} {id : String} (ha : q.subject.asset? = some (kind, id)) :
    a.declaresKind kind id = true := by
  cases e with
  | svg e =>
    cases List.mem_singleton.mp hq
    cases ha
    exact hd .svg e.asset List.mem_cons_self
  | image e =>
    cases List.mem_singleton.mp hq
    cases ha
    exact hd .image e.asset List.mem_cons_self
  | text e =>
    cases List.mem_singleton.mp hq
    cases ha
  | shape e =>
    cases List.mem_singleton.mp hq
    cases ha
  | group g =>
    obtain ⟨i, hi, hcue⟩ := List.mem_filterMap.mp hq
    obtain ⟨subject, hs, rfl⟩ := Option.map_eq_some_iff.mp hcue
    obtain ⟨itemKind, href, hkind⟩ := Item.reference?_of_asset? hs ha
    exact hkind a ▸ hd itemKind id (List.mem_filterMap.mpr ⟨i, hi, href⟩)

variable [Scalar α]

theorem Spec.declaresAudio_of_issues {s : Spec α} (h : s.issues = []) {scene : Scene α}
    (hscene : scene ∈ s.scenes) {t : Soundtrack α} (ht : scene.audio = some t) :
    s.assets.declaresAudio t.asset = true := by
  obtain ⟨path, hissues⟩ := exists_scene_issues_eq_nil h hscene
  have haudio := (List.append_eq_nil_iff.mp (List.append_eq_nil_iff.mp hissues).1).2
  rw [ht] at haudio
  simpa using (List.append_eq_nil_iff.mp haudio).1

theorem Spec.declaresKind_of_mem_cues {s : Spec α} (h : s.issues = []) {scene : Scene α}
    (hscene : scene ∈ s.scenes) {q : Cue α} (hq : q ∈ scene.cues) {kind : AssetKind} {id : String}
    (ha : q.subject.asset? = some (kind, id)) : s.assets.declaresKind kind id = true := by
  rcases List.mem_append.mp hq with hsound | hdrawn
  · obtain ⟨t, ht, rfl⟩ := Option.map_eq_some_iff.mp (Option.mem_toList.mp hsound)
    cases ha
    exact declaresAudio_of_issues h hscene ht
  · obtain ⟨e, he, hcue⟩ := List.mem_flatMap.mp hdrawn
    obtain ⟨cue, hmem, rfl⟩ := List.mem_map.mp hcue
    exact Element.declaresKind_of_mem_cues
      (fun _ _ hr => declares_of_issues h hscene he hr) hmem ha

namespace Compiler
variable {c : Compiler α} {sizes : Sizes α}

/-- A project lists all assets that its spec declares, and if the spec has no issues, every action
that shows or plays an asset finds it in the list of its kind. -/
theorem compileWith_refers {s : Spec α} {p : Project α} (h : c.compileWith sizes s = .ok p) :
    p.assets.ListsAll s.assets ∧
      (s.issues = [] → ∀ a ∈ p.actions, ∀ kind id, a.deed.asset? = some (kind, id) →
        p.assets.Has kind id) := by
  have hlists : p.assets.ListsAll s.assets := by
    obtain ⟨deeds, -, rfl⟩ := compileWith_eq_ok_iff.mp h
    exact AssetTable.listsAll_ofSources s.assets
  refine ⟨hlists, fun hs a ha kind id hasset => hlists.has ?_⟩
  obtain ⟨played, hplayed, haction⟩ := List.mem_flatMap.mp ha
  have hcues : ∀ played ∈ p.scenes, ∀ a ∈ played.actions, ∀ kind id,
      a.deed.asset? = some (kind, id) → s.assets.declaresKind kind id = true := by
    refine forall_mem_of_forall₂ (forall₂_scenes_of_compileWith h).flip ?_
    rintro scene hscene _ ⟨k, deeds, hdeeds, rfl⟩ a ha kind id hasset
    have hcue : a.deed.cue ∈ scene.cues := by
      rw [← scene_cues hdeeds, ← map_cue_play k scene deeds]
      exact List.mem_map_of_mem ha
    exact Spec.declaresKind_of_mem_cues hs hscene hcue (a.deed.asset?_cue ▸ hasset)
  exact hcues played hplayed a haction kind id hasset

theorem sample_refers : Spec.sample.issues = [] ∧
    ∃ p, (plain (α := Rat) ⟨1920, 1080⟩).compile Spec.sample = .ok p ∧
      p.assets.ListsAll Spec.sample.assets ∧
      ∀ a ∈ p.actions, ∀ kind id, a.deed.asset? = some (kind, id) → p.assets.Has kind id := by
  have h : ((plain (α := Rat) ⟨1920, 1080⟩).compile Spec.sample).toOption.isSome := by
    decide +kernel
  obtain ⟨p, hp⟩ := isSome_toOption_iff.mp h
  have hrefers := compileWith_refers hp
  exact ⟨Spec.issues_sample, p, hp, hrefers.1, hrefers.2 Spec.issues_sample⟩

end Compiler
end Storyboard
