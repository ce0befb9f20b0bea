import Rodos.Library.LimitedRecord
import Rodos.Support.MonitoringMsg

/-! What a sender's fields make of the parameters of a `MonitoringMsg`: `operator<<` does not look
at what `serialize` returns. -/
namespace Rodos.Support
open Library

/-- An object to be sent. It lies in the same address space as the array of the parameters. -/
structure Field (bits : Nat) where
  src : Memory UInt8
  len : Nat
  fits : len + MAX_PARAMS < 2 ^ bits

def Field.bytes {bits : Nat} (field : Field bits) : List UInt8 := field.src.front field.len

namespace MonitoringMsg

variable {bits : Nat}

def clear (self : MonitoringMsg) : MonitoringMsg :=
  { self with numOfParamsToSend := 0, numOfParamsDeserialized := 0 }

/-- `operator<<` of any type. -/
def push (self : MonitoringMsg) (field : Field bits) : MonitoringMsg :=
  (self.serialize bits field.src field.len).2

def pushAll (self : MonitoringMsg) (fields : List (Field bits)) : MonitoringMsg :=
  fields.foldl push self

/-- The parameters that will be sent. -/
def content (self : MonitoringMsg) : List UInt8 := self.params.front self.numOfParamsToSend.toNat

@[simp] theorem length_content (msg : MonitoringMsg) :
    msg.content.length = msg.numOfParamsToSend.toNat := Memory.length_front _ _

theorem content_clear (msg : MonitoringMsg) : msg.clear.content = [] := rfl

theorem content_push {msg : MonitoringMsg} (hlt : msg.numOfParamsToSend.toNat < MAX_PARAMS)
    (field : Field bits) :
    (msg.push field).content = place MAX_PARAMS msg.content field.bytes := by
  have hfits := field.fits
  have hend : newEnd bits msg.numOfParamsToSend.toNat field.len =
      msg.numOfParamsToSend.toNat + field.len := Nat.mod_eq_of_lt (by omega)
  rw [push, serialize, hend, place, length_content, Field.bytes, Memory.length_front]
  by_cases hfull : msg.numOfParamsToSend.toNat + field.len < MAX_PARAMS
  · have hslice : field.src.slice 0 (0 + field.len) = field.src.front field.len := by
      rw [Memory.slice, Nat.zero_add, List.drop_zero]
    rw [if_pos hfull]
    simp only [if_neg (show ¬ msg.numOfParamsToSend.toNat + field.len ≥ MAX_PARAMS by omega)]
    rw [content, toNat_ofNat_of_small (Nat.le_of_lt hfull), Memory.front_copy, hslice]
    rfl
  · rw [if_neg hfull]
    simp only [if_pos (show msg.numOfParamsToSend.toNat + field.len ≥ MAX_PARAMS by omega)]

theorem content_pushAll {msg : MonitoringMsg} (hlt : msg.numOfParamsToSend.toNat < MAX_PARAMS)
    (fields : List (Field bits)) :
    (msg.pushAll fields).content = placeAll MAX_PARAMS msg.content (fields.map Field.bytes) := by
  induction fields generalizing msg with
  | nil => rfl
  | cons field later ih =>
    have hnext := @serialize_lt bits msg field.src field.len hlt
    rw [List.map_cons, placeAll_cons, ← content_push hlt]
    exact ih hnext

theorem content_pushAll_clear (msg : MonitoringMsg) (fields : List (Field bits)) :
    (msg.clear.pushAll fields).content = placeAll MAX_PARAMS [] (fields.map Field.bytes) := by
  have hlt : msg.clear.numOfParamsToSend.toNat < MAX_PARAMS := show 0 < MAX_PARAMS by decide
  rw [content_pushAll hlt, content_clear]

theorem placeAll_empty_eq_take_iff (fields : List (Field bits)) :
    (∃ count, placeAll MAX_PARAMS [] (fields.map Field.bytes) =
        ((fields.take count).map Field.bytes).flatten) ↔
      NoneFitsBehind MAX_PARAMS 0 (fields.map Field.bytes) := by
  have hempty : ([] : List UInt8).length < MAX_PARAMS := by decide
  simpa [List.map_take] using @placeAll_eq_take_iff _ _ _ (fields.map Field.bytes) hempty

/-- A cleared message takes a beginning of the fields exactly if none fits behind the first that
does not. -/
theorem content_eq_take_iff (msg : MonitoringMsg) (fields : List (Field bits)) :
    (∃ count, (msg.clear.pushAll fields).content =
        ((fields.take count).map Field.bytes).flatten) ↔
      NoneFitsBehind MAX_PARAMS 0 (fields.map Field.bytes) := by
  rw [content_pushAll_clear]
  exact placeAll_empty_eq_take_iff fields

/-- A string of 60 bytes, a `double` and a `short`. -/
def stringDoubleShort : List (Field 64) :=
  [⟨fun _ => 1, 60, by decide⟩, ⟨fun _ => 2, 8, by decide⟩, ⟨fun _ => 3, 2, by decide⟩]

/-- Behind the string there is no room for the `double`, but for the `short` that follows it. -/
theorem short_behind_string :
    ¬ ∃ count, (eightSent.clear.pushAll stringDoubleShort).content =
      ((stringDoubleShort.take count).map Field.bytes).flatten := by
  rw [content_pushAll_clear, placeAll_empty_eq_take_iff]
  decide

end MonitoringMsg

end Rodos.Support
