import Mathlib.Data.List.Range
import Storyboard.Proofs.Arrange
import Storyboard.Proofs.Deeds

set_option autoImplicit false

namespace Storyboard
variable {α : Type}

theorem toDigits_injective {i j : Nat} (h : Nat.toDigits 10 i = Nat.toDigits 10 j) : i = j := by
  rw [← Nat.ofDigitChars_ten_toDigits (n := i), h, Nat.ofDigitChars_ten_toDigits]

@[simp] theorem map_deed_play (k : Nat) (s : Scene α) (deeds : List (Deed α)) :
    (s.play k deeds).actions.map Action.deed = deeds := by
  simp only [Scene.play, List.map_map]
  exact List.zipIdx_map_fst k deeds

theorem forall₂_playAll {R : Scene α → List (Deed α) → Prop} {scenes : List (Scene α)}
    {deeds : List (List (Deed α))} (k : Nat) (h : List.Forall₂ R scenes deeds) :
    List.Forall₂ (fun p s => ∃ i ds, R s ds ∧ p = s.play i ds) (playAll k (scenes.zip deeds))
      scenes := by
  induction h generalizing k with
  | nil => exact .nil
  | cons hr _ ih => exact .cons ⟨k, _, hr, rfl⟩ (ih _)

namespace Compiler
variable [Scalar α]
variable {c : Compiler α} {sizes : Sizes α} {scene : Scene α}

theorem itemId_injective {i j : Nat} (h : itemId i = itemId j) : i = j := by
  have hr : i.repr = j.repr := by simpa [itemId] using h
  apply toDigits_injective
  rw [← Nat.toList_repr, ← Nat.toList_repr, hr]

theorem nodup_members_itemId (items : List (Item α)) :
    ((c.members sizes items).map fun m => itemId m.2.2).Nodup := by
  have hlt : items.zipIdx.Pairwise fun a b => a.2 < b.2 := by
    rw [← List.pairwise_map, List.zipIdx_map_snd]
    exact List.pairwise_lt_range'
  have hm : (c.members sizes items).Pairwise fun a b => a.2.2 < b.2.2 := by
    unfold members
    rw [List.pairwise_filterMap]
    refine hlt.imp ?_
    intro a b hab m hm m' hm'
    obtain ⟨size, -, rfl⟩ := Option.map_eq_some_iff.mp hm
    obtain ⟨size', -, rfl⟩ := Option.map_eq_some_iff.mp hm'
    exact hab
  rw [List.Nodup, List.pairwise_map]
  exact hm.imp fun hab heq => absurd (itemId_injective heq) (Nat.ne_of_lt hab)

theorem map_id_of_mapM_create {items : List (Item α)} {flex : List (Member α)}
    (h : (c.members sizes items).mapM (fun m => Member.create (itemId m.2.2) m.2.1) = .ok flex) :
    flex.map Member.id = (c.members sizes items).map fun m => itemId m.2.2 := by
  symm
  apply forall₂_map_eq
  refine (mapM_eq_ok_iff.mp h).imp ?_
  intro m f hf
  rw [(Member.create_eq_ok_iff.mp hf).2]

/-- The detour by the ids brings every item that counts to the place that was found for it. -/
theorem filterMap_itemDeed {g : Group α} {flex : List (Member α)} {fitted : List (Fitted α)}
    (hflex : (c.members sizes g.items).mapM (fun m => Member.create (itemId m.2.2) m.2.1) = .ok flex)
    (ha : c.stage.arrange g.layout flex = .ok fitted) :
    (c.members sizes g.items).filterMap (fun m =>
      ((Table.ofList ((flex.map Member.id).zip fitted)).get? (itemId m.2.2)).map
        (c.itemDeed scene g m.1)) =
      (c.members sizes g.items).zipWith (fun m f => c.itemDeed scene g m.1 f) fitted := by
  have hids := map_id_of_mapM_create hflex
  have hfound := Stage.forall₂_get?_of_arrange ha (hids ▸ nodup_members_itemId g.items)
  apply filterMap_eq_zipWith
  rw [← List.forall₂_map_left_iff (f := fun m : Item α × Size α × Nat => itemId m.2.2)
    (R := fun id f => (Table.ofList ((flex.map Member.id).zip fitted)).get? id = some f), ← hids,
    List.forall₂_map_left_iff]
  exact hfound

theorem group_eq_ok_iff {g : Group α} {deeds : List (Deed α)} :
    c.groupDeeds sizes scene g = .ok deeds ↔
      ∃ flex fitted,
        (c.members sizes g.items).mapM (fun m => Member.create (itemId m.2.2) m.2.1) = .ok flex ∧
        c.stage.arrange g.layout flex = .ok fitted ∧
        deeds = (c.members sizes g.items).zipWith (fun m f => c.itemDeed scene g m.1 f) fitted := by
  constructor
  · intro h
    obtain ⟨places, hplaces, rfl⟩ := map_eq_ok_iff.mp h
    obtain ⟨flex, hflex, hplaces⟩ := bind_eq_ok_iff.mp hplaces
    obtain ⟨fitted, ha, rfl⟩ := map_eq_ok_iff.mp hplaces
    exact ⟨flex, fitted, hflex, ha, filterMap_itemDeed hflex ha⟩
  · rintro ⟨flex, fitted, hflex, ha, rfl⟩
    have hplaces : c.places sizes g =
        .ok (Table.ofList ((flex.map Member.id).zip fitted)) :=
      bind_eq_ok_iff.mpr ⟨flex, hflex, map_eq_ok_iff.mpr ⟨fitted, ha, rfl⟩⟩
    exact map_eq_ok_iff.mpr ⟨_, hplaces, filterMap_itemDeed hflex ha⟩

theorem exists_item_of_group {g : Group α} {deeds : List (Deed α)}
    (h : c.groupDeeds sizes scene g = .ok deeds) :
    ∀ d ∈ deeds, ∃ i ∈ g.items, ∃ f, d = c.itemDeed scene g i f := by
  obtain ⟨places, -, rfl⟩ := map_eq_ok_iff.mp h
  intro d hd
  obtain ⟨⟨i, size, n⟩, hm, hd⟩ := List.mem_filterMap.mp hd
  obtain ⟨f, -, rfl⟩ := Option.map_eq_some_iff.mp hd
  obtain ⟨⟨i', n'⟩, hi, hsome⟩ := List.mem_filterMap.mp hm
  obtain ⟨_, -, heq⟩ := Option.map_eq_some_iff.mp hsome
  cases heq
  exact ⟨i, (List.mem_zipIdx' hi).2 ▸ List.getElem_mem _, f, rfl⟩

theorem scene_eq_ok_iff {deeds : List (Deed α)} :
    c.sceneDeeds sizes scene = .ok deeds ↔
      ∃ drawn,
        List.Forall₂ (fun e ds => c.elementDeeds sizes scene e = .ok ds) scene.elements drawn ∧
        deeds = (scene.audio.map (c.soundtrack scene)).toList ++ drawn.flatten := by
  rw [sceneDeeds, bind_eq_ok_iff]
  simp only [mapM_eq_ok_iff, pure, Except.pure, Except.ok.injEq, @eq_comm _ deeds]

theorem compileWith_eq_ok_iff {s : Spec α} {p : Project α} :
    c.compileWith sizes s = .ok p ↔
      ∃ deeds, List.Forall₂ (fun scene ds => c.sceneDeeds sizes scene = .ok ds) s.scenes deeds ∧
        p = ⟨.ofSpec s, .ofSources s.assets, playAll 1 (s.scenes.zip deeds)⟩ := by
  rw [compileWith_eq, map_eq_ok_iff]
  simp only [mapM_eq_ok_iff, @eq_comm _ p]

theorem forall₂_scenes_of_compileWith {s : Spec α} {p : Project α}
    (h : c.compileWith sizes s = .ok p) :
    List.Forall₂ (fun p s => ∃ i ds, c.sceneDeeds sizes s = .ok ds ∧ p = s.play i ds) p.scenes
      s.scenes := by
  obtain ⟨deeds, hdeeds, rfl⟩ := compileWith_eq_ok_iff.mp h
  exact forall₂_playAll 1 hdeeds

end Compiler

end Storyboard
