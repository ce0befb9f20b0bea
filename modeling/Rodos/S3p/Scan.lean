import Rodos.S3p.Synchronous
import Mathlib.Data.List.Chain
import Mathlib.Data.List.Induction

/-! What a receiver reads into the bytes of a line, whether or not a sender has put them there:
data bytes, frame marks and commands. -/
namespace Rodos.S3p

/-- The token of a mark and the byte that completes it. -/
def Token.ofCode (low : UInt8) : Token :=
  let dualByte := COMMAND ||| low.toUInt16
  if dualByte = BOM then .bom
  else if dualByte = EOM then .eom
  else if dualByte = STUFF then .data markByte
  else .command dualByte

/-- A receiver byte by byte: whether a mark is pending afterwards, and the tokens completed.
Nothing is said about a mark behind a mark. -/
structure Scanner where
  next : Bool → UInt8 → Bool × List Token
  next_mark : next false markByte = (true, [])
  next_plain : ∀ c ≠ markByte, next false c = (false, [.data c])
  next_code : ∀ low ≠ markByte, next true low = (false, [.ofCode low])

/-- Behind a mark every byte completes a code. -/
def nestedRead : Scanner where
  next pending c :=
    if pending then (false, [.ofCode c])
    else if c = markByte then (true, [])
    else (false, [.data c])
  next_mark := rfl
  next_plain c hc := by simp [hc]
  next_code low _ := rfl

/-- Behind a mark a second mark takes the place of the first. -/
def rememberedMark : Scanner where
  next pending c :=
    if c = markByte then (true, [])
    else if pending then (false, [.ofCode c])
    else (false, [.data c])
  next_mark := rfl
  next_plain c hc := by simp [hc]
  next_code low hlow := by simp [hlow]

namespace Scanner

def scan (self : Scanner) (pending : Bool) : List UInt8 → Bool × List Token
  | [] => (pending, [])
  | c :: line =>
    let rest := self.scan (self.next pending c).1 line
    (rest.1, (self.next pending c).2 ++ rest.2)

variable (self : Scanner)

@[simp] theorem scan_nil (pending : Bool) : self.scan pending [] = (pending, []) := rfl

theorem scan_cons (pending : Bool) (c : UInt8) (line : List UInt8) :
    self.scan pending (c :: line) =
      ((self.scan (self.next pending c).1 line).1,
        (self.next pending c).2 ++ (self.scan (self.next pending c).1 line).2) := rfl

theorem scan_append (pending : Bool) (line later : List UInt8) :
    self.scan pending (line ++ later) =
      ((self.scan (self.scan pending line).1 later).1,
        (self.scan pending line).2 ++ (self.scan (self.scan pending line).1 later).2) := by
  induction line generalizing pending with
  | nil => rfl
  | cons c line ih => simp only [List.cons_append, scan_cons, ih, List.append_assoc]

theorem scan_plain {c : UInt8} (hc : c ≠ markByte) (line : List UInt8) :
    self.scan false (c :: line) =
      ((self.scan false line).1, .data c :: (self.scan false line).2) := by
  rw [scan_cons, self.next_plain c hc]
  rfl

theorem scan_code {low : UInt8} (hlow : low ≠ markByte) (line : List UInt8) :
    self.scan false (markByte :: low :: line) =
      ((self.scan false line).1, .ofCode low :: (self.scan false line).2) := by
  rw [scan_cons, self.next_mark, scan_cons, self.next_code low hlow]
  rfl

/-- No byte is a mark that has a mark before it. -/
def NoMarkBehindMark (line : List UInt8) : Prop :=
  line.IsChain fun before c => before = markByte → c ≠ markByte

instance (line : List UInt8) : Decidable (NoMarkBehindMark line) :=
  inferInstanceAs (Decidable (List.IsChain _ _))

/-- Scanners can only differ behind two adjacent marks. -/
theorem scan_eq (other : Scanner) (line : List UInt8) (hline : NoMarkBehindMark line) :
    self.scan false line = other.scan false line := by
  induction line using List.twoStepInduction with
  | nil => rfl
  | singleton c =>
    by_cases hc : c = markByte
    · rw [hc, scan_cons, scan_cons, self.next_mark, other.next_mark]
      rfl
    · rw [self.scan_plain hc, other.scan_plain hc]
      rfl
  | cons_cons c low line ih ihTail =>
    obtain ⟨hfirst, htail⟩ := List.isChain_cons_cons.mp hline
    by_cases hc : c = markByte
    · subst hc
      have hlow := hfirst rfl
      rw [self.scan_code hlow, other.scan_code hlow, ih htail.tail]
    · rw [self.scan_plain hc, other.scan_plain hc, ihTail low htail]

end Scanner

end Rodos.S3p
