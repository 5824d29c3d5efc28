import Storyboard.Proofs.FirstFault

set_option autoImplicit false

/-!
Groups without ids. What becomes of a group depends on the items that count and the sizes they come
in; where they stand in the document, and the ids they are laid out under, only show in faults.
-/

namespace Storyboard
variable {α : Type}

/-- The fault, without the id of the group item that it may be about. -/
def Fault.unnamed : Fault α → Fault α
  | .degenerateItem _ size => .degenerateItem "" size
  | .collapsed _ size content count => .collapsed "" size content count
  | f => f

def Member.unnamed (m : Member α) : Member α := { m with id := "" }

@[simp] theorem Fault.kind_unnamed (f : Fault α) : f.unnamed.kind = f.kind := by
  cases f <;> rfl

variable [Scalar α]

def Size.fault? (blame : Size α → Fault α) (size : Size α) : Option (Fault α) :=
  if size.proper then none else some (blame size)

theorem Member.putAll_map_unnamed (d : Direction) (align : Align) (content : Box α)
    (step cursor : α) (items : List (Member α)) (sizes : List (Size α)) :
    putAll d align content step cursor ((items.map unnamed).zip sizes) =
      putAll d align content step cursor (items.zip sizes) := by
  induction items generalizing sizes cursor with
  | nil => rfl
  | cons m items ih =>
    cases sizes with
    | nil => rfl
    | cons _ sizes => exact congrArg (_ :: ·) (ih _ sizes)

namespace Stage

theorem groupSizes_map_unnamed (s : Stage α) (layout : Flow α) (items : List (Member α)) :
    s.groupSizes layout (items.map Member.unnamed) = s.groupSizes layout items := by
  unfold groupSizes Sizing.sizes
  cases layout.sizing.getD default <;> simp [List.map_map, Function.comp_def, Member.unnamed]

theorem arrange_map_unnamed_eq_ok_iff (s : Stage α) (layout : Flow α) (items : List (Member α))
    (fitted : List (Fitted α)) :
    s.arrange layout (items.map Member.unnamed) = .ok fitted ↔
      s.arrange layout items = .ok fitted := by
  rw [arrange_eq_ok_iff, arrange_eq_ok_iff]
  simp only [groupSpacing, groupSizes_map_unnamed, Member.putAll_map_unnamed, List.length_map]

theorem arrange_map_ofSize_eq_ok_iff {β : Type} (s : Stage α) (layout : Flow α) (ms : List β)
    (id : β → String) (size : β → Size α) (fitted : List (Fitted α)) :
    s.arrange layout (ms.map fun m => .ofSize (id m) (size m)) = .ok fitted ↔
      s.arrange layout ((ms.map size).map (.ofSize "")) = .ok fitted := by
  rw [← arrange_map_unnamed_eq_ok_iff, List.map_map, List.map_map]
  exact Iff.rfl

theorem unnamed_failure?_arrange (s : Stage α) (layout : Flow α) (items : List (Member α)) :
    (failure? (s.arrange layout items)).map Fault.unnamed =
      (s.groupSizes layout items).findSome?
        (Size.fault? (.collapsed "" · (s.contentSize layout) items.length)) := by
  rw [failure?_arrange, List.map_findSome?]
  conv_rhs => rw [← map_snd_zip_groupSizes, List.findSome?_map]
  congr 1
  funext ⟨m, size⟩
  cases h : size.proper <;> simp [Size.fault?, h, Fault.unnamed]

end Stage

namespace Compiler
variable (c : Compiler α) (sizes : Sizes α)

def sizedItems (g : Group α) : List (Item α × Size α) :=
  g.items.filterMap fun item => (c.itemSize? sizes item).map (item, ·)

variable {c sizes} {scene : Scene α}

theorem map_members (g : Group α) :
    (c.members sizes g.items).map (fun m => (m.1, m.2.1)) = c.sizedItems sizes g := by
  unfold members sizedItems
  rw [List.map_filterMap]
  conv_rhs => rw [← List.zipIdx_map_fst 0 g.items, List.filterMap_map]
  congr 1
  funext ⟨item, i⟩
  cases h : c.itemSize? sizes item <;> simp [h]

theorem arrange_groupMembers_eq_ok_iff {g : Group α} {fitted : List (Fitted α)} :
    c.stage.arrange g.layout (c.groupMembers sizes g) = .ok fitted ↔
      c.stage.arrange g.layout ((c.intrinsicSizes sizes g).map (.ofSize "")) = .ok fitted := by
  rw [intrinsicSizes, ← map_size_members]
  exact Stage.arrange_map_ofSize_eq_ok_iff _ _ _ _ _ _

theorem group_eq_ok_iff_sizedItems {g : Group α} {deeds : List (Deed α)} :
    c.groupDeeds sizes scene g = .ok deeds ↔
      (∀ size ∈ c.intrinsicSizes sizes g, size.proper = true) ∧
        ∃ fitted,
          c.stage.arrange g.layout ((c.intrinsicSizes sizes g).map (.ofSize "")) = .ok fitted ∧
          deeds = (c.sizedItems sizes g).zipWith (fun p f => c.itemDeed scene g p.1 f) fitted := by
  rw [group_eq_ok_iff, ← map_members]
  simp only [mapM_create_eq_ok_iff, ← arrange_groupMembers_eq_ok_iff, List.zipWith_map_left]
  constructor
  · rintro ⟨_, fitted, ⟨hproper, rfl⟩, ha, hdeeds⟩
    exact ⟨hproper, fitted, ha, hdeeds⟩
  · rintro ⟨hproper, fitted, ha, hdeeds⟩
    exact ⟨_, fitted, ⟨hproper, rfl⟩, ha, hdeeds⟩

theorem unnamed_failure?_group (g : Group α) :
    (failure? (c.groupDeeds sizes scene g)).map Fault.unnamed =
      ((c.intrinsicSizes sizes g).findSome? (Size.fault? (.degenerateItem ""))).or
        ((c.computedSizes sizes g).findSome? (Size.fault?
          (.collapsed "" · (c.stage.contentSize g.layout) (c.intrinsicSizes sizes g).length))) := by
  have hitems : (g.items.zipIdx.findSome? (c.itemFault? sizes)).map Fault.unnamed =
      (c.intrinsicSizes sizes g).findSome? (Size.fault? (.degenerateItem "")) := by
    rw [← failure?_mapM_create, failure?_mapM, List.map_findSome?, intrinsicSizes,
      ← map_size_members, List.findSome?_map]
    congr 1
    funext m
    cases h : m.2.1.proper <;> simp [Member.failure?_create, Size.fault?, h, Fault.unnamed]
  have hlength : (c.groupMembers sizes g).length = (c.intrinsicSizes sizes g).length := by
    rw [groupMembers, List.length_map, intrinsicSizes, ← map_size_members, List.length_map]
  rw [failure?_group, Option.map_or, hitems, Stage.unnamed_failure?_arrange,
    groupSizes_groupMembers, hlength]

end Compiler
end Storyboard
