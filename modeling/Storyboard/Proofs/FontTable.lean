import Mathlib.Data.List.Dedup
import Storyboard.Proofs.Bytes
import Storyboard.Proofs.Table
import Storyboard.Stage

set_option autoImplicit false

namespace Storyboard.FontTable
variable {α : Type}

inductive Step (α : Type) where
  | insert (name : String) (family : Family α)
  | withUnlistedAdvance (advance : α)
  deriving DecidableEq, Repr

namespace Step

def apply (t : FontTable α) : Step α → FontTable α
  | .insert name family => t.insert name family
  | .withUnlistedAdvance advance => t.withUnlistedAdvance advance

def listing? : Step α → Option (String × Family α)
  | .insert name family => some (name, family)
  | .withUnlistedAdvance _ => none

def advance? : Step α → Option α
  | .insert .. => none
  | .withUnlistedAdvance advance => some advance

end Step

def run (t : FontTable α) (steps : List (Step α)) : FontTable α := steps.foldl Step.apply t

/-- The table holds what was listed in turn, and the advance that was set last. -/
structure Holds (t : FontTable α) (listings : List (String × Family α)) (advances : List α) :
    Prop where
  sorted : t.names.Pairwise (· < ·)
  mem_names : ∀ name, name ∈ t.names ↔ name ∈ listings.map Prod.fst
  get? : ∀ name, t.get? name = listings.reverse.lookup name
  unlistedAdvance : t.unlistedAdvance = advances.getLast?

namespace Holds
variable {t : FontTable α} {listings : List (String × Family α)} {advances : List α}

theorem empty : Holds ({} : FontTable α) [] [] where
  sorted := .nil
  mem_names _ := Iff.rfl
  get? _ := rfl
  unlistedAdvance := rfl

theorem standard [Scalar α] : (standard : FontTable α).Holds standard.families.entries [] where
  sorted := Table.pairwise_names_ofList _
  mem_names _ := Iff.rfl
  get? name := (Table.lookup_reverse (Table.nodup_names (Table.pairwise_names_ofList _)) name).symm
  unlistedAdvance := rfl

theorem insert (h : t.Holds listings advances) (name : String) (family : Family α) :
    (t.insert name family).Holds (listings ++ [(name, family)]) advances where
  sorted := Table.pairwise_names_insert h.sorted name family
  mem_names other := by
    have hnames : other ∈ (t.insert name family).names ↔ other = name ∨ other ∈ t.names :=
      Table.mem_names_insert
    rw [hnames, h.mem_names, List.map_append, List.mem_append, or_comm, List.map_singleton,
      List.mem_singleton]
  get? other := by
    have hget : (t.insert name family).get? other =
        if other = name then some family else t.get? other :=
      Table.get?_insert t.families name other family
    rw [hget, h.get?, List.reverse_append, List.reverse_singleton, List.singleton_append,
      Table.lookup_cons_eq_if]
  unlistedAdvance := h.unlistedAdvance

theorem withUnlistedAdvance (h : t.Holds listings advances) (advance : α) :
    (t.withUnlistedAdvance advance).Holds listings (advances ++ [advance]) where
  sorted := h.sorted
  mem_names := h.mem_names
  get? := h.get?
  unlistedAdvance := List.getLast?_concat.symm

theorem create (h : t.Holds listings advances) (canvas : Canvas) (measures : Measures α) :
    (Stage.create canvas t measures).fonts.Holds listings
      (advances ++ [measures.unlistedAdvance]) :=
  h.withUnlistedAdvance measures.unlistedAdvance

theorem run (h : t.Holds listings advances) (steps : List (Step α)) :
    (t.run steps).Holds (listings ++ steps.filterMap Step.listing?)
      (advances ++ steps.filterMap Step.advance?) := by
  induction steps generalizing t listings advances with
  | nil => simpa [FontTable.run] using h
  | cons step steps ih =>
    cases step with
    | insert name family =>
      have hrest := ih (h.insert name family)
      rwa [List.append_assoc] at hrest
    | withUnlistedAdvance advance =>
      have hrest := ih (h.withUnlistedAdvance advance)
      rwa [List.append_assoc] at hrest

theorem size (h : t.Holds listings advances) : t.size = (listings.map Prod.fst).dedup.length := by
  have hperm : t.names.Perm (listings.map Prod.fst).dedup := by
    refine (List.perm_ext_iff_of_nodup (Table.nodup_names h.sorted) (List.nodup_dedup _)).mpr ?_
    exact fun name => (h.mem_names name).trans List.mem_dedup.symm
  exact (List.length_map Prod.fst).symm.trans hperm.length_eq

end Holds

structure Records [Scalar α] (t : FontTable α) (listings : List (String × Family α))
    (advances : List α) : Prop where
  sorted : t.names.Pairwise fun a b => Text.bytes a < Text.bytes b
  mem_names : ∀ name, name ∈ t.names ↔ name ∈ listings.map Prod.fst
  size : t.size = (listings.map Prod.fst).dedup.length
  listed : ∀ before name family after, listings = before ++ (name, family) :: after →
    name ∉ after.map Prod.fst →
    t.get? name = some family ∧ t.url name = .ok family.url ∧ t.advance name = family.advance
  unlisted : ∀ name, name ∉ listings.map Prod.fst →
    t.get? name = none ∧ t.url name = .error (.unknownFont name t.names) ∧
      t.advance name = advances.getLast?.getD 0.5

theorem message_unknownFont (name : String) (known : List String) :
    (Fault.unknownFont name known).message = "font error: unknown font family '" ++ name ++
      "'; registered families: [" ++ String.intercalate ", " known ++ "]" := by
  have hdetail : (Fault.unknownFont name known).detail = "unknown font family '" ++ name ++
      "'; registered families: [" ++ String.intercalate ", " known ++ "]" := rfl
  have hlead : "font error: unknown font family '" = "font error: " ++ "unknown font family '" := by
    decide
  change "font error: " ++ (Fault.unknownFont name known).detail = _
  rw [hdetail, hlead]
  simp only [String.append_assoc]

variable [Scalar α]

theorem Holds.records {t : FontTable α} {listings : List (String × Family α)} {advances : List α}
    (h : t.Holds listings advances) : t.Records listings advances where
  sorted := h.sorted.imp Text.bytes_lt_of_lt
  mem_names := h.mem_names
  size := h.size
  listed before name family after hlistings hafter := by
    have hget : t.get? name = some family := by
      rw [h.get?, hlistings, Table.lookup_reverse_append family hafter]
    refine ⟨hget, ?_, ?_⟩
    · rw [url, hget]
    · rw [advance, hget]
  unlisted name hname := by
    have hget : t.get? name = none := by
      rw [h.get?, Table.lookup_eq_none_of_not_mem]
      rwa [List.map_reverse, List.mem_reverse]
    refine ⟨hget, ?_, ?_⟩
    · rw [url, hget]
    · rw [advance, hget, h.unlistedAdvance]

/-- Whatever was listed and set, in whatever order, the names are in order and each of them is there
once; under a name there is what was listed last, and a name that was never listed has the advance
that was set last and no url, for which the fault lists all names. Families of the standard table
count as listed first. The measures of a stage set the last advance. -/
theorem run_records (steps : List (Step α)) :
    let listings := steps.filterMap Step.listing?
    let advances := steps.filterMap Step.advance?
    ((run {} steps).Records listings advances ∧
      (run standard steps).Records (standard.families.entries ++ listings) advances) ∧
    (∀ (canvas : Canvas) (measures : Measures α),
      (Stage.create canvas (run {} steps) measures).fonts.Records listings
        (advances ++ [measures.unlistedAdvance]) ∧
      (Stage.create canvas (run standard steps) measures).fonts.Records
        (standard.families.entries ++ listings) (advances ++ [measures.unlistedAdvance])) ∧
    ∀ (name : String) (known : List String),
      (Fault.unknownFont name known : Fault α).kind = .font ∧
      (Fault.unknownFont name known).message = "font error: unknown font family '" ++ name ++
        "'; registered families: [" ++ String.intercalate ", " known ++ "]" := by
  intro listings advances
  have hempty : (run {} steps).Holds listings advances := Holds.empty.run steps
  have hstandard : (run standard steps).Holds (standard.families.entries ++ listings) advances :=
    Holds.standard.run steps
  refine ⟨⟨hempty.records, hstandard.records⟩, fun canvas measures => ⟨?_, ?_⟩,
    fun name known => ⟨rfl, message_unknownFont name known⟩⟩
  · exact (hempty.create canvas measures).records
  · exact (hstandard.create canvas measures).records

end Storyboard.FontTable
