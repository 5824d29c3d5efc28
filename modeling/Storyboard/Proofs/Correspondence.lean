import Storyboard.Proofs.FirstFault

set_option autoImplicit false

namespace Storyboard.Stage
variable {α : Type} [Scalar α]

def groupPlaces (s : Stage α) (layout : Flow α) (items : List (Member α)) : List (Fitted α) :=
  Member.putAll layout.direction (layout.align.getD default) (s.content layout)
    (s.groupSpacing layout items).step (s.groupSpacing layout items).lead
    (items.zip (s.groupSizes layout items))

theorem failure?_arrange_ids (s : Stage α) (layout : Flow α) (items : List (Member α)) :
    failure? (s.arrange layout items) =
      ((items.map Member.id).zip (s.groupSizes layout items)).findSome? fun p =>
        if p.2.proper then none
        else some (.collapsed p.1 p.2 (s.contentSize layout) items.length) := by
  rw [failure?_arrange, List.zip_map_left, List.findSome?_map]
  rfl

/-- One group is another, up to how sizes, places and faults are given. -/
structure Corresponds (size : Size α → Size α) (place : Fitted α → Fitted α)
    (fault : Fault α → Fault α) (s s' : Stage α) (layout layout' : Flow α)
    (items items' : List (Member α)) : Prop where
  ids : items'.map Member.id = items.map Member.id
  sizes : s'.groupSizes layout' items' = (s.groupSizes layout items).map size
  proper : ∀ x, (size x).proper = x.proper
  faults : ∀ id x n, fault (.collapsed id x (s.contentSize layout) n) =
    .collapsed id (size x) (s'.contentSize layout') n
  places : s'.groupPlaces layout' items' = (s.groupPlaces layout items).map place

namespace Corresponds
variable {size : Size α → Size α} {place : Fitted α → Fitted α} {fault : Fault α → Fault α}
  {s s' : Stage α} {layout layout' : Flow α} {items items' : List (Member α)}

theorem length_eq (h : Corresponds size place fault s s' layout layout' items items') :
    items'.length = items.length := by
  simpa using congrArg List.length h.ids

theorem failure?_arrange (h : Corresponds size place fault s s' layout layout' items items') :
    failure? (s'.arrange layout' items') = (failure? (s.arrange layout items)).map fault := by
  rw [failure?_arrange_ids, failure?_arrange_ids, h.ids, h.sizes, h.length_eq, List.zip_map_right,
    List.findSome?_map, List.map_findSome?]
  congr 1
  funext p
  simp only [Function.comp_apply, Prod.map_fst, Prod.map_snd, id_eq, h.proper]
  split
  · rfl
  · exact congrArg some (h.faults _ _ _).symm

theorem arrange_eq (h : Corresponds size place fault s s' layout layout' items items') :
    s'.arrange layout' items' = ((s.arrange layout items).map (List.map place)).mapError fault := by
  cases ha : s.arrange layout items with
  | error f =>
    have hfailure := h.failure?_arrange
    rw [ha] at hfailure
    exact failure?_eq_some_iff.mp hfailure
  | ok fitted =>
    obtain ⟨hproper, rfl⟩ := (s.arrange_eq_ok_iff layout items fitted).mp ha
    refine (s'.arrange_eq_ok_iff layout' items' _).mpr ⟨?_, h.places.symm⟩
    rw [h.sizes, List.forall_mem_map]
    intro x hx
    rw [h.proper, hproper x hx]

theorem placesById_eq (h : Corresponds size place fault s s' layout layout' items items') :
    s'.placesById layout' items' =
      ((s.placesById layout items).map (Table.map place)).mapError fault := by
  unfold placesById
  rw [h.arrange_eq, h.ids]
  cases s.arrange layout items with
  | error f => rfl
  | ok fitted =>
    have hzip : (items.map Member.id).zip (fitted.map place) =
        ((items.map Member.id).zip fitted).map fun e => (e.1, place e.2) := by
      rw [List.zip_map_right]
      rfl
    exact congrArg Except.ok ((congrArg Table.ofList hzip).trans (Table.ofList_map _ _))

end Corresponds
end Storyboard.Stage
