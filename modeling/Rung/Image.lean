import Rung.Command

/-!
# The process image

The image holds the state of every device the machine reads and writes. A cell that has never been
written is absent; it reads OFF or 0, yet an image that stores OFF or 0 there is a different image.

* `Image`, its cells (`bit?`, `word?`, `setBit`, `setWord`) and `Image.ext_cells`;
* `readPoint`, `writePoint`, `readValue`, `writeValue`, `evaluate`;
* `apply`: what an action does to its target.
-/

namespace Rung

structure Image where
  bits : Std.ExtTreeMap BitCell Bool compare := ∅
  words : Std.ExtTreeMap WordCell Int64 compare := ∅
  deriving DecidableEq

namespace Image

/-! ## Cells -/

/-- The stored bit of a cell, if it has ever been written. -/
def bit? (img : Image) (c : BitCell) : Option Bool := img.bits[c]?

def word? (img : Image) (c : WordCell) : Option Int64 := img.words[c]?

/-- The bit of a cell; OFF when it has never been written. -/
def bit (img : Image) (c : BitCell) : Bool := (img.bit? c).getD false

def word (img : Image) (c : WordCell) : Int64 := (img.word? c).getD 0

def setBit (img : Image) (c : BitCell) (state : Bool) : Image :=
  { img with bits := img.bits.insert c state }

def setWord (img : Image) (c : WordCell) (value : Int64) : Image :=
  { img with words := img.words.insert c value }

@[simp] theorem bit?_setBit (img : Image) (c d : BitCell) (state : Bool) :
    (img.setBit c state).bit? d = if c = d then some state else img.bit? d := by
  simp [bit?, setBit, Std.ExtTreeMap.getElem?_insert]

@[simp] theorem word?_setBit (img : Image) (c : BitCell) (d : WordCell) (state : Bool) :
    (img.setBit c state).word? d = img.word? d := rfl

@[simp] theorem bit?_setWord (img : Image) (c : WordCell) (d : BitCell) (value : Int64) :
    (img.setWord c value).bit? d = img.bit? d := rfl

@[simp] theorem word?_setWord (img : Image) (c d : WordCell) (value : Int64) :
    (img.setWord c value).word? d = if c = d then some value else img.word? d := by
  simp [word?, setWord, Std.ExtTreeMap.getElem?_insert]

theorem ext_cells {img img' : Image} (bits : ∀ c, img.bit? c = img'.bit? c)
    (words : ∀ c, img.word? c = img'.word? c) : img = img' := by
  obtain ⟨b, w⟩ := img
  obtain ⟨b', w'⟩ := img'
  have hb : b = b' := Std.ExtTreeMap.ext_getElem? bits
  have hw : w = w' := Std.ExtTreeMap.ext_getElem? words
  rw [hb, hw]

def area (img : Image) (a : BitArea) : List (Tag × Bool) :=
  img.bits.toList.filterMap fun (c, state) => if c.area = a then some (c.tag, state) else none

/-! ## Points and values -/

def putBit (word : Int64) (index : Nat) (state : Bool) : Int64 :=
  let mask := BitVec.twoPow 64 index
  .ofBitVec (if state then word.toBitVec ||| mask else word.toBitVec &&& ~~~mask)

/-- A word shifted right with its sign, unless that would shift out all its bits. -/
def shiftRight? (word : Int64) (count : Nat) : Option Int64 :=
  if count < 64 then some (.ofBitVec (word.toBitVec.sshiftRight count)) else none

/-- Reads a bit. A memory bit past the 64 bits of a word is OFF. -/
def readPoint (img : Image) : Point → Bool
  | .input tag => img.bit ⟨.input, tag⟩
  | .contact tag => img.bit ⟨.contact, tag⟩
  | .memoryBit tag index => (shiftRight? (img.word ⟨.memory, tag⟩) index).getD 0 &&& 1 == 1

theorem and_one_beq_one (word : Int64) : (word &&& 1 == 1) = word.toBitVec.getLsbD 0 := by
  have hand : (word &&& 1).toBitVec = (BitVec.ofBool (word.toBitVec.getLsbD 0)).setWidth 64 := by
    rw [Int64.toBitVec_and]
    exact BitVec.and_one_eq_setWidth_ofBool_getLsbD
  rw [Bool.eq_iff_iff, beq_iff_eq, ← Int64.toBitVec_inj, hand]
  cases word.toBitVec.getLsbD 0 <;> decide

theorem readPoint_memoryBit_eq_getLsbD (img : Image) (tag : Tag) (index : Nat) :
    img.readPoint (.memoryBit tag index) = (img.word ⟨.memory, tag⟩).toBitVec.getLsbD index := by
  rw [readPoint, and_one_beq_one, shiftRight?]
  split
  case isTrue h =>
    rw [Option.getD_some, Int64.toBitVec_ofBitVec, BitVec.getLsbD_sshiftRight]
    simp [h]
  case isFalse h => simp [BitVec.getLsbD_of_ge _ _ (Nat.not_lt.mp h)]

/-- Writes a bit. A memory bit past the 64 bits of a word is ignored. -/
def writePoint (img : Image) (point : Point) (state : Bool) : Image :=
  match point with
  | .input tag => img.setBit ⟨.input, tag⟩ state
  | .contact tag => img.setBit ⟨.contact, tag⟩ state
  | .memoryBit tag index =>
    if index < 64 then
      img.setWord ⟨.memory, tag⟩ (putBit (img.word ⟨.memory, tag⟩) index state)
    else img

def readValue (img : Image) : Value → Int64
  | .constant value => value
  | .cell c => img.word c

def writeValue (img : Image) (place : Value) (value : Int64) : Image :=
  match place with
  | .constant _ => img
  | .cell c => img.setWord c value

def evaluate (img : Image) : Operand → Bool
  | .bit point inverse => img.readPoint point != inverse
  | .compare left relation right => relation.holds (img.readValue left) (img.readValue right)

/-! ## Actions -/

/-- A current value one step on, as long as it is below its preset. -/
def advance (current preset : Int64) : Int64 := if current < preset then current + 1 else current

/-- Drives a target with a gate. A timer counts scans while the gate is ON and is cleared when it
is OFF; a counter counts the gate's changes from OFF to ON. Both stop at their preset. -/
def drive (img : Image) (target : Target) (on : Bool) : Image :=
  match target with
  | .bit point => img.writePoint point on
  | .memory tag => img.setWord ⟨.memory, tag⟩ (if on then 1 else 0)
  | .timer tag preset =>
    let current := img.word ⟨.timer, tag⟩
    img.setWord ⟨.timer, tag⟩ (if on then advance current (img.readValue preset) else 0)
  | .counter tag preset =>
    let current := img.word ⟨.counter, tag⟩
    let edge := on && !img.bit ⟨.coil, tag⟩
    (img.setBit ⟨.coil, tag⟩ on).setWord ⟨.counter, tag⟩
      (if edge then advance current (img.readValue preset) else current)

/-- Latches a target ON; a timer or counter takes its preset. -/
def latch (img : Image) : Target → Image
  | .bit point => img.writePoint point true
  | .memory tag => img.setWord ⟨.memory, tag⟩ 1
  | .timer tag preset => img.setWord ⟨.timer, tag⟩ (img.readValue preset)
  | .counter tag preset => img.setWord ⟨.counter, tag⟩ (img.readValue preset)

/-- Stores a value in a target; a bit is ON unless the value is 0. -/
def store (img : Image) (value : Int64) : Target → Image
  | .bit point => img.writePoint point (value != 0)
  | .memory tag => img.setWord ⟨.memory, tag⟩ value
  | .timer tag _ => img.setWord ⟨.timer, tag⟩ value
  | .counter tag _ => img.setWord ⟨.counter, tag⟩ value

/-- Applies an action to its target, gated by the value of its circuit. An output follows the gate
on every scan; the other effects act only while the gate is ON. -/
def apply (img : Image) (effect : Effect) (target : Target) (on : Bool) : Image :=
  match effect with
  | .output => img.drive target on
  | .set => if on then img.latch target else img
  | .reset => if on then img.store 0 target else img
  | .write value => if on then img.store (img.readValue value) target else img

end Image

end Rung
