import Mathlib.Data.List.GetD

/-! A shift register with feedback, as a cyclic redundancy check uses it. What it holds after a
sequence of bits respects exclusive or, and a burst no longer than the register never leaves it
empty. -/
namespace Rodos.Library.ShiftRegister

variable {width : Nat}

/-- The register moves up by one place. If the bit that leaves it is not the one that arrives,
the polynomial is added. -/
def feed (polynomial state : BitVec width) (bit : Bool) : BitVec width :=
  (state <<< 1) ^^^ (if state.msb ^^ bit then polynomial else 0)

def feedAll (polynomial state : BitVec width) (bits : List Bool) : BitVec width :=
  bits.foldl (feed polynomial) state

section linear

variable (polynomial : BitVec width)

@[simp] theorem feedAll_nil (state : BitVec width) : feedAll polynomial state [] = state := rfl

@[simp] theorem feedAll_cons (state : BitVec width) (bit : Bool) (bits : List Bool) :
    feedAll polynomial state (bit :: bits) =
      feedAll polynomial (feed polynomial state bit) bits := rfl

theorem feedAll_append (state : BitVec width) (front back : List Bool) :
    feedAll polynomial state (front ++ back) =
      feedAll polynomial (feedAll polynomial state front) back := by
  simp [feedAll]

theorem msb_xor (a b : BitVec width) : (a ^^^ b).msb = (a.msb ^^ b.msb) := by
  simp [BitVec.msb_eq_getMsbD_zero]

theorem feed_xor (a b : BitVec width) (c d : Bool) :
    feed polynomial (a ^^^ b) (c ^^ d) = feed polynomial a c ^^^ feed polynomial b d := by
  have hcancel (x y : BitVec width) : x ^^^ y = x ^^^ polynomial ^^^ (y ^^^ polynomial) := by
    rw [BitVec.xor_assoc x, ← BitVec.xor_assoc polynomial, BitVec.xor_comm polynomial,
      BitVec.xor_assoc y, BitVec.xor_self, BitVec.xor_zero]
  unfold feed
  rw [BitVec.shiftLeft_xor_distrib, msb_xor]
  cases a.msb <;> cases b.msb <;> cases c <;> cases d <;> simp <;>
    first | exact hcancel _ _ | ac_rfl

theorem feedAll_xor (a b : BitVec width) {bits errors : List Bool}
    (hlength : errors.length = bits.length) :
    feedAll polynomial (a ^^^ b) (List.zipWith xor bits errors) =
      feedAll polynomial a bits ^^^ feedAll polynomial b errors := by
  induction bits generalizing a b errors with
  | nil =>
    cases errors with
    | nil => rfl
    | cons error errors => simp at hlength
  | cons bit bits ih =>
    cases errors with
    | nil => simp at hlength
    | cons error errors =>
      rw [List.zipWith_cons_cons, feedAll_cons, feed_xor, ih _ _ (by simpa using hlength)]
      rfl

theorem feedAll_zeros (count : Nat) :
    feedAll polynomial 0 (List.replicate count false) = 0 := by
  induction count with
  | zero => rfl
  | succ count ih =>
    have hstep : feed polynomial (0 : BitVec width) false = 0 := by simp [feed]
    rw [List.replicate_succ, feedAll_cons, hstep, ih]

end linear

section odd

variable {polynomial : BitVec width} (hodd : polynomial.getLsbD 0 = true)
include hodd

/-- The lowest bit tells whether the polynomial was added. -/
theorem getLsbD_zero_feed (state : BitVec width) (bit : Bool) :
    (feed polynomial state bit).getLsbD 0 = (state.msb ^^ bit) := by
  unfold feed
  cases state.msb ^^ bit <;> simp [hodd]

/-- A register that no more bits than it has places leave empty held exactly these bits. -/
theorem getMsbD_of_feedAll_eq_zero {bits : List Bool} (hlength : bits.length ≤ width)
    {state : BitVec width} (hzero : feedAll polynomial state bits = 0) (place : Nat) :
    state.getMsbD place = bits.getD place false := by
  induction bits generalizing state place with
  | nil =>
    rw [feedAll_nil] at hzero
    simp [hzero]
  | cons bit bits ih =>
    rw [List.length_cons] at hlength
    rw [feedAll_cons] at hzero
    have hheld := ih (by omega) hzero
    have hlow : (feed polynomial state bit).getLsbD 0 = false := by
      have hlast := hheld (width - 1)
      rw [List.getD_eq_default _ _ (by omega), BitVec.getMsbD_eq_getLsbD] at hlast
      simpa [show width - 1 < width by omega] using hlast
    rw [getLsbD_zero_feed hodd] at hlow
    have hshift : feed polynomial state bit = state <<< 1 := by
      rw [feed, hlow]
      simp
    cases place with
    | zero =>
      rw [List.getD_cons_zero, ← BitVec.msb_eq_getMsbD_zero]
      simpa using hlow
    | succ place =>
      rw [List.getD_cons_succ, ← hheld place, hshift, BitVec.getMsbD_shiftLeft, Nat.add_comm]

theorem eq_zero_of_feedAll_zeros {count : Nat} {state : BitVec width} (hwidth : 0 < width)
    (hzero : feedAll polynomial state (List.replicate count false) = 0) : state = 0 := by
  induction count generalizing state with
  | zero => exact hzero
  | succ count ih =>
    rw [List.replicate_succ, feedAll_cons] at hzero
    have hone : feedAll polynomial state [false] = 0 := ih hzero
    apply BitVec.eq_of_getMsbD_eq
    intro place hplace
    rw [@getMsbD_of_feedAll_eq_zero _ _ hodd [false] hwidth _ hone place]
    cases place <;> simp

/-- A burst of errors no longer than the register, with any number of good bits around it, is
seen. -/
theorem feedAll_burst_ne_zero {burst : List Bool} (hlength : burst.length ≤ width)
    (hburst : true ∈ burst) (front back : Nat) :
    feedAll polynomial 0 (List.replicate front false ++ burst ++ List.replicate back false) ≠
      0 := by
  have hpositive : 0 < burst.length := List.length_pos_of_mem hburst
  intro hzero
  rw [feedAll_append, feedAll_append, feedAll_zeros] at hzero
  have hinside := eq_zero_of_feedAll_zeros hodd (by omega) hzero
  obtain ⟨place, hplace, htrue⟩ := List.getElem_of_mem hburst
  have hheld := getMsbD_of_feedAll_eq_zero hodd hlength hinside place
  rw [List.getD_eq_getElem _ _ hplace, htrue] at hheld
  simp at hheld

end odd

/-- What a sequence of bits is whose ones lie within a stretch of places. -/
theorem eq_of_stretch {bits : List Bool} {start length : Nat}
    (hstretch : ∀ place, bits.getD place false = true → start ≤ place ∧ place < start + length) :
    bits = List.replicate (bits.take start).length false ++ (bits.drop start).take length ++
      List.replicate (bits.drop (start + length)).length false := by
  have hfront : bits.take start = List.replicate (bits.take start).length false := by
    apply List.eq_replicate_of_mem
    intro bit hbit
    obtain ⟨place, hplace, rfl⟩ := List.getElem_of_mem hbit
    rw [List.length_take] at hplace
    have houtside := mt (hstretch place) (by omega)
    rw [List.getD_eq_getElem _ _ (by omega)] at houtside
    simpa using houtside
  have hback : bits.drop (start + length) =
      List.replicate (bits.drop (start + length)).length false := by
    apply List.eq_replicate_of_mem
    intro bit hbit
    obtain ⟨place, hplace, rfl⟩ := List.getElem_of_mem hbit
    rw [List.length_drop] at hplace
    have houtside := mt (hstretch (start + length + place)) (by omega)
    rw [List.getD_eq_getElem _ _ (by omega)] at houtside
    simpa using houtside
  rw [← hfront, ← hback, List.append_assoc, ← List.drop_drop, List.take_append_drop,
    List.take_append_drop]

/-- Errors within as many places as the register has change what it holds in the end. -/
theorem feedAll_ne_of_stretch {polynomial : BitVec width} (hodd : polynomial.getLsbD 0 = true)
    (state : BitVec width) {bits errors : List Bool} (hlength : errors.length = bits.length)
    {start : Nat}
    (hstretch : ∀ place, errors.getD place false = true → start ≤ place ∧ place < start + width)
    (herror : true ∈ errors) :
    feedAll polynomial state (List.zipWith xor bits errors) ≠ feedAll polynomial state bits := by
  have hsplit := eq_of_stretch hstretch
  have hburst : true ∈ (errors.drop start).take width := by
    rw [hsplit] at herror
    simpa using herror
  have hnonzero := feedAll_burst_ne_zero hodd
    (Nat.le_trans (List.length_take_le _ _) (Nat.le_refl _)) hburst (errors.take start).length
    (errors.drop (start + width)).length
  rw [← hsplit] at hnonzero
  have hxor := feedAll_xor polynomial state 0 hlength
  rw [show state ^^^ 0 = state from BitVec.xor_zero] at hxor
  rw [hxor]
  intro hsame
  apply hnonzero
  calc feedAll polynomial 0 errors
      = feedAll polynomial state bits ^^^
          (feedAll polynomial state bits ^^^ feedAll polynomial 0 errors) := by
        rw [← BitVec.xor_assoc, BitVec.xor_self, BitVec.zero_xor]
    _ = 0 := by
        rw [hsame, BitVec.xor_self]
        rfl

end Rodos.Library.ShiftRegister
