import Mathlib.Data.List.Flatten
import Mathlib.Tactic.Common

/-! A record of limited length. Fields are placed behind each other; one that would reach the limit
is left out, and the next one is tried again. -/
namespace Rodos.Library

variable {α : Type} (limit : Nat)

def place (record field : List α) : List α :=
  if record.length + field.length < limit then record ++ field else record

def placeAll (record : List α) (fields : List (List α)) : List α :=
  fields.foldl (place limit) record

/-- Behind the first field that is left out there is no room for any of the others. -/
def NoneFitsBehind (used : Nat) : List (List α) → Prop
  | [] => True
  | field :: later =>
    if used + field.length < limit then NoneFitsBehind (used + field.length) later
    else ∀ other ∈ later, other.length = 0 ∨ limit ≤ used + other.length

instance NoneFitsBehind.decidable : (used : Nat) → (fields : List (List α)) →
    Decidable (NoneFitsBehind limit used fields)
  | _, [] => isTrue trivial
  | used, field :: later =>
    have : Decidable (NoneFitsBehind limit (used + field.length) later) :=
      decidable (used + field.length) later
    inferInstanceAs (Decidable (if used + field.length < limit then
      NoneFitsBehind limit (used + field.length) later
      else ∀ other ∈ later, other.length = 0 ∨ limit ≤ used + other.length))

variable {limit} {record field : List α} {fields : List (List α)}

@[simp] theorem placeAll_nil : placeAll limit record [] = record := rfl

theorem placeAll_cons : placeAll limit record (field :: fields) =
    placeAll limit (place limit record field) fields := rfl

theorem length_place (hrecord : record.length < limit) :
    (place limit record field).length < limit := by
  unfold place
  split
  · next hfits => rwa [List.length_append]
  · exact hrecord

theorem length_placeAll (hrecord : record.length < limit) :
    (placeAll limit record fields).length < limit := by
  induction fields generalizing record with
  | nil => exact hrecord
  | cons field later ih => exact ih (length_place hrecord)

theorem prefix_place : record <+: place limit record field := by
  unfold place
  split
  · exact List.prefix_append _ _
  · exact List.prefix_rfl

theorem prefix_placeAll : record <+: placeAll limit record fields := by
  induction fields generalizing record with
  | nil => exact List.prefix_rfl
  | cons field later ih => exact prefix_place.trans ih

/-- Nothing is added exactly if there is room for nothing. -/
theorem placeAll_eq_self_iff :
    placeAll limit record fields = record ↔
      ∀ field ∈ fields, field.length = 0 ∨ limit ≤ record.length + field.length := by
  induction fields with
  | nil => exact iff_of_true rfl nofun
  | cons field later ih =>
    rw [placeAll_cons, List.forall_mem_cons]
    by_cases hfits : record.length + field.length < limit
    · by_cases hempty : field.length = 0
      · have hnil := List.eq_nil_of_length_eq_zero hempty
        subst hnil
        rw [place, if_pos hfits, List.append_nil, ih]
        exact (and_iff_right (.inl rfl)).symm
      · apply iff_of_false
        · intro hsame
          have hlength := (@prefix_placeAll _ limit (place limit record field) later).length_le
          rw [hsame, place, if_pos hfits, List.length_append] at hlength
          omega
        · rintro ⟨hfield | hfield, -⟩
          · exact hempty hfield
          · omega
    · rw [place, if_neg hfits, ih]
      exact (and_iff_right (.inr (by omega))).symm

/-- The record is a beginning of the fields exactly if none fits behind the first that does not. -/
theorem placeAll_eq_take_iff (hrecord : record.length < limit) :
    (∃ count, placeAll limit record fields = record ++ (fields.take count).flatten) ↔
      NoneFitsBehind limit record.length fields := by
  induction fields generalizing record with
  | nil => exact iff_of_true ⟨0, by simp⟩ trivial
  | cons field later ih =>
    rw [placeAll_cons, NoneFitsBehind]
    by_cases hfits : record.length + field.length < limit
    · have hplaced : place limit record field = record ++ field := if_pos hfits
      have hlength : (record ++ field).length = record.length + field.length := List.length_append
      rw [if_pos hfits, hplaced, ← hlength, ← ih (by omega)]
      constructor
      · rintro ⟨_ | count, hsame⟩
        · have hgrown := (@prefix_placeAll _ limit (record ++ field) later).length_le
          rw [hsame, hlength, List.take_zero, List.flatten_nil, List.append_nil] at hgrown
          have hnil := List.eq_nil_of_length_eq_zero (show field.length = 0 by omega)
          exact ⟨0, by simpa [hnil] using hsame⟩
        · exact ⟨count, by simpa using hsame⟩
      · rintro ⟨count, hsame⟩
        exact ⟨count + 1, by simpa using hsame⟩
    · rw [if_neg hfits, place, if_neg hfits, ← placeAll_eq_self_iff]
      constructor
      · rintro ⟨_ | count, hsame⟩
        · simpa using hsame
        · have hshort := @length_placeAll _ limit record later hrecord
          rw [hsame, List.take_succ_cons, List.flatten_cons, List.length_append,
            List.length_append] at hshort
          omega
      · intro hsame
        exact ⟨0, by simpa using hsame⟩

end Rodos.Library
