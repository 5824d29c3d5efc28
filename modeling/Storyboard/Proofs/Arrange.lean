import Mathlib.Data.List.Forall2
import Storyboard.Layout.Arrange
import Storyboard.Proofs.Table
import Storyboard.Proofs.Traversal

set_option autoImplicit false

namespace Storyboard
variable {α : Type} [Scalar α]

theorem Member.create_eq_ok_iff {id : String} {size : Size α} {m : Member α} :
    Member.create id size = .ok m ↔
      size.proper = true ∧ m = ⟨id, size, size.width / size.height⟩ := by
  unfold Member.create
  split
  · rename_i h
    simp [h, eq_comm]
  · rename_i h
    simp [h]

@[simp] theorem Sizing.length_sizes (z : Sizing) (d : Direction) (items : List (Member α))
    (main cap gap : α) : (z.sizes d items main cap gap).length = items.length := by
  cases z <;> simp [Sizing.sizes]

@[simp] theorem Member.length_putAll (d : Direction) (a : Align) (content : Box α) (step : α)
    (cursor : α) (sized : List (Member α × Size α)) :
    (Member.putAll d a content step cursor sized).length = sized.length := by
  induction sized generalizing cursor with
  | nil => rfl
  | cons _ rest ih => simp [Member.putAll, ih]

def Box.size (b : Box α) : Size α := ⟨b.width, b.height⟩

theorem Member.forall₂_putAll (d : Direction) (a : Align) (content : Box α) (step : α)
    (cursor : α) (sized : List (Member α × Size α)) :
    List.Forall₂ (fun p f => f.box.size = p.2 ∧ f.scale = p.2.width / p.1.size.width) sized
      (Member.putAll d a content step cursor sized) := by
  induction sized generalizing cursor with
  | nil => exact .nil
  | cons _ rest ih => exact .cons ⟨rfl, rfl⟩ (ih _)

namespace Stage

@[simp] theorem length_groupSizes (s : Stage α) (layout : Flow α) (items : List (Member α)) :
    (s.groupSizes layout items).length = items.length := by
  simp [groupSizes]

theorem map_snd_zip_groupSizes (s : Stage α) (layout : Flow α) (items : List (Member α)) :
    (items.zip (s.groupSizes layout items)).map Prod.snd = s.groupSizes layout items :=
  List.map_snd_zip (by simp)

theorem forall_mem_zip_groupSizes_iff {P : Size α → Prop} (s : Stage α) (layout : Flow α)
    (items : List (Member α)) :
    (∀ p ∈ items.zip (s.groupSizes layout items), P p.2) ↔
      ∀ size ∈ s.groupSizes layout items, P size := by
  rw [← List.forall_mem_map (f := Prod.snd) (P := P), map_snd_zip_groupSizes]

theorem map_zip_groupSizes {β : Type} (f : Size α → β) (s : Stage α) (layout : Flow α)
    (items : List (Member α)) :
    (items.zip (s.groupSizes layout items)).map (fun p => f p.2) =
      (s.groupSizes layout items).map f := by
  conv_rhs => rw [← map_snd_zip_groupSizes, List.map_map]
  rfl

/-- The extents of the content box along and across the main axis. -/
def contentExtent (s : Stage α) (layout : Flow α) : Extent α :=
  layout.direction.extent ⟨(s.content layout).width, (s.content layout).height⟩

def groupSpacing (s : Stage α) (layout : Flow α) (items : List (Member α)) : Spacing α :=
  (layout.justify.getD default).spacing (s.contentExtent layout).main
    (Scalar.sum ((s.groupSizes layout items).map fun size => (layout.direction.extent size).main))
    (layout.gap.getD s.measures.groupGap) (Scalar.ofNat items.length)

theorem arrange_eq_ok_iff (s : Stage α) (layout : Flow α) (items : List (Member α))
    (fitted : List (Fitted α)) :
    s.arrange layout items = .ok fitted ↔
      (∀ size ∈ s.groupSizes layout items, size.proper = true) ∧
        fitted = Member.putAll layout.direction (layout.align.getD default) (s.content layout)
          (s.groupSpacing layout items).step (s.groupSpacing layout items).lead
          (items.zip (s.groupSizes layout items)) := by
  have htotal := map_zip_groupSizes (fun size => (layout.direction.extent size).main) s layout items
  have hproper : (∀ size ∈ s.groupSizes layout items, size.proper = true) ↔
      (items.zip (s.groupSizes layout items)).find? (fun p => !p.2.proper) = none := by
    rw [← forall_mem_zip_groupSizes_iff]
    simp
  rw [hproper]
  unfold arrange
  cases items with
  | nil => simp [groupSizes, Sizing.sizes, Member.putAll, eq_comm]
  | cons item rest =>
    simp only [List.isEmpty_cons, Bool.false_eq_true, if_false]
    cases hf : ((item :: rest).zip (s.groupSizes layout (item :: rest))).find?
        fun p => !p.2.proper with
    | some p => simp
    | none =>
      simp only [htotal, true_and, Except.ok.injEq]
      exact eq_comm

theorem length_of_arrange {s : Stage α} {layout : Flow α} {items : List (Member α)}
    {fitted : List (Fitted α)} (h : s.arrange layout items = .ok fitted) :
    fitted.length = items.length := by
  rw [arrange_eq_ok_iff] at h
  simp [h.2]

theorem forall₂_size_of_arrange {s : Stage α} {layout : Flow α} {items : List (Member α)}
    {fitted : List (Fitted α)} {g : Member α → Size α} (hg : s.groupSizes layout items = items.map g)
    (h : s.arrange layout items = .ok fitted) :
    List.Forall₂ (fun m f => f.box.size = g m ∧ f.scale = (g m).width / m.size.width) items
      fitted := by
  obtain ⟨-, rfl⟩ := (s.arrange_eq_ok_iff layout items fitted).mp h
  rw [hg, ← List.map_prod_left_eq_zip]
  exact List.forall₂_map_left_iff.mp (Member.forall₂_putAll layout.direction
    (layout.align.getD default) (s.content layout) (s.groupSpacing layout items).step
    (s.groupSpacing layout items).lead (items.map fun m => (m, g m)))

theorem forall₂_get?_of_arrange {s : Stage α} {layout : Flow α} {items : List (Member α)}
    {fitted : List (Fitted α)} (h : s.arrange layout items = .ok fitted)
    (hn : (items.map Member.id).Nodup) :
    List.Forall₂ (fun m f => (Table.ofList ((items.map Member.id).zip fitted)).get? m.id = some f)
      items fitted := by
  rw [← List.forall₂_map_left_iff (f := Member.id)
    (R := fun id f => (Table.ofList ((items.map Member.id).zip fitted)).get? id = some f)]
  exact Table.forall₂_get?_ofList_zip (by simp [length_of_arrange h]) hn

end Stage
end Storyboard
