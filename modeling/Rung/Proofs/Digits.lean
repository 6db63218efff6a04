import Mathlib.Algebra.BigOperators.Group.Finset.Basic
import Mathlib.Tactic.Ring
import Rung.Proofs.LastWriter
import Rung.Proofs.Meaning

/-!
# The bits of a memory word

The bits of a memory word are the digits of its number in two's complement, the sign among them.
Bits written one after another replace their digits and no other, so the word can be told from the
last state written to each index.

* `digit`, `ofDigits`: the digits of a number, and the number that 64 digits stand for;
* `sum_digit`, `toInt_eq_ofDigits`, `eq_of_digit_eq`: a word is known by its digits;
* `Image.writeDigits`, `lastWritten`, `overwritten`: bits written one after another;
* `Image.readPoint_writeDigits`, `Image.digit_word_writeDigits`: the digits that are left;
* **`Image.writeDigits_replaces_digits`**: the word, and everything else, after such writes.
-/

namespace Rung

/-! ## Digits -/

/-- A digit of a number in two's complement, in which a negative number has ones without end. -/
def digit (n : Int) (place : Nat) : Bool := decide (n / 2 ^ place % 2 = 1)

/-- The number that 64 digits stand for; the highest has negative weight. -/
def ofDigits (digits : Nat → Bool) : Int :=
  ∑ j ∈ Finset.range 63, (digits j).toInt * 2 ^ j - (digits 63).toInt * 2 ^ 63

theorem toInt_digit (n : Int) (place : Nat) : (digit n place).toInt = n / 2 ^ place % 2 := by
  rw [digit]
  by_cases h : n / 2 ^ place % 2 = 1
  · simp [h]
  · have hzero : n / 2 ^ place % 2 = 0 := by omega
    simp [hzero]

theorem sum_digit (n : Int) (k : Nat) :
    ∑ j ∈ Finset.range k, (digit n j).toInt * 2 ^ j = n % 2 ^ k := by
  induction k with
  | zero => rw [Finset.sum_range_zero, pow_zero, Int.emod_one]
  | succ k ih =>
    have hpos : (0 : Int) ≤ 2 ^ k := Int.le_of_lt (Int.pow_pos (by decide))
    rw [Finset.sum_range_succ, ih, toInt_digit, pow_succ, Int.emod_def n (2 ^ k * 2),
      ← Int.ediv_ediv_of_nonneg hpos, Int.emod_def n (2 ^ k), Int.emod_def (n / 2 ^ k) 2]
    ring

/-- The number of a 64-bit word is the one that its digits stand for. -/
theorem toInt_eq_ofDigits (x : Int64) : x.toInt = ofDigits (digit x.toInt) := by
  rw [ofDigits, sum_digit, toInt_digit]
  have hlow := x.le_toInt
  have hhigh := x.toInt_lt
  omega

theorem ofDigits_congr {d d' : Nat → Bool} (h : ∀ j < 64, d j = d' j) :
    ofDigits d = ofDigits d' := by
  have hsum : ∑ j ∈ Finset.range 63, (d j).toInt * 2 ^ j =
      ∑ j ∈ Finset.range 63, (d' j).toInt * 2 ^ j := by
    refine Finset.sum_congr rfl fun j hj => ?_
    rw [h j (Nat.lt_succ_of_lt (Finset.mem_range.mp hj))]
  rw [ofDigits, ofDigits, hsum, h 63 (by decide)]

theorem eq_of_digit_eq {x y : Int64} (h : ∀ j < 64, digit x.toInt j = digit y.toInt j) :
    x = y := by
  rw [← Int64.toInt_inj, toInt_eq_ofDigits x, toInt_eq_ofDigits y, ofDigits_congr h]

/-! ## Bits written one after another -/

def lastWritten (writes : List (Nat × Bool)) (index : Nat) : Option Bool :=
  (writes.filterMap fun (i, state) => if i = index then some state else none).getLast?

/-- The digits of a number once some have been written: the state last written to an index, else the
digit that the number has there. -/
def overwritten (n : Int) (writes : List (Nat × Bool)) (index : Nat) : Bool :=
  (lastWritten writes index).getD (digit n index)

namespace Image

def writeDigits (img : Image) (tag : Tag) (writes : List (Nat × Bool)) : Image :=
  writes.foldl (fun img (i, state) => img.writePoint (.memoryBit tag i) state) img

variable (img : Image) (tag : Tag)

theorem readPoint_memoryBit {index : Nat} (h : index < 64) :
    img.readPoint (.memoryBit tag index) = digit (img.word ⟨.memory, tag⟩).toInt index := by
  rw [readPoint_memoryBit_eq_getLsbD]
  exact getLsbD_toBitVec_eq_decide _ h

theorem readPoint_memoryBit_of_le {index : Nat} (h : 64 ≤ index) :
    img.readPoint (.memoryBit tag index) = false := by
  rw [readPoint_memoryBit_eq_getLsbD]
  exact BitVec.getLsbD_of_ge _ _ h

theorem writePoint_memoryBit_of_le {index : Nat} (h : 64 ≤ index) (state : Bool) :
    img.writePoint (.memoryBit tag index) state = img := by
  rw [writePoint, if_neg (by omega)]

theorem readPoint_writePoint_memoryBit {index : Nat} (h : index < 64) (i : Nat) (state : Bool) :
    (img.writePoint (.memoryBit tag i) state).readPoint (.memoryBit tag index) =
      if i = index then state else img.readPoint (.memoryBit tag index) := by
  split_ifs with hi
  · subst hi
    exact img.readPoint_writePoint_self state fun _ _ he => by cases he; exact h
  · exact img.readPoint_writePoint_of_ne state fun he => hi (by cases he; rfl)

/-- **A bit reads as it was last written**, and as before if it was not. -/
theorem readPoint_writeDigits (writes : List (Nat × Bool)) {index : Nat} (h : index < 64) :
    (img.writeDigits tag writes).readPoint (.memoryBit tag index) =
      (lastWritten writes index).getD (img.readPoint (.memoryBit tag index)) := by
  -- a write to another index leaves the bit, as no write would
  have hfold : writes.foldl (fun stored w => (if w.1 = index then some w.2 else none).or stored)
        (some (img.readPoint (.memoryBit tag index))) =
      some ((img.writeDigits tag writes).readPoint (.memoryBit tag index)) := by
    refine List.foldl_hom (fun img : Image => some (img.readPoint (.memoryBit tag index)))
      fun img w => ?_
    rw [img.readPoint_writePoint_memoryBit tag h]
    split_ifs <;> rfl
  rw [foldl_or, Option.or_some] at hfold
  exact (Option.some.inj hfold).symm

theorem digit_word_writeDigits (writes : List (Nat × Bool)) {index : Nat} (h : index < 64) :
    digit ((img.writeDigits tag writes).word ⟨.memory, tag⟩).toInt index =
      overwritten (img.word ⟨.memory, tag⟩).toInt writes index := by
  rw [← readPoint_memoryBit _ _ h, readPoint_writeDigits _ _ _ h, readPoint_memoryBit _ _ h,
    overwritten]

theorem writeDigits_filter (writes : List (Nat × Bool)) :
    img.writeDigits tag (writes.filter fun w => w.1 < 64) = img.writeDigits tag writes := by
  rw [writeDigits, List.foldl_filter, writeDigits]
  congr 1
  funext img w
  split_ifs with h
  · rfl
  · exact (img.writePoint_memoryBit_of_le tag (by simpa using h) w.2).symm

theorem sameAt_writeDigits (writes : List (Nat × Bool)) {cell : Cell}
    (h : cell ≠ .word ⟨.memory, tag⟩) : (img.writeDigits tag writes).SameAt img cell :=
  List.foldlRecOn (motive := fun img' : Image => img'.SameAt img cell) writes _
    (SameAt.refl img cell) fun img' himg w _ => (img'.sameAt_writePoint w.2 h).trans himg

/-- **Memory bits are the two's complement digits of their word**, the highest one with the sign.
Indexes past the 64 bits read OFF, and writes to them are dropped. -/
theorem writeDigits_replaces_digits (writes : List (Nat × Bool)) :
    (∀ j < 64, (img.writeDigits tag writes).readPoint (.memoryBit tag j) =
      overwritten (img.readValue (.cell ⟨.memory, tag⟩)).toInt writes j) ∧
    (∀ v : Int64, (img.writeDigits tag writes).readValue (.cell ⟨.memory, tag⟩) = v ↔
      ∀ j < 64, digit v.toInt j =
        overwritten (img.readValue (.cell ⟨.memory, tag⟩)).toInt writes j) ∧
    ((img.writeDigits tag writes).readValue (.cell ⟨.memory, tag⟩)).toInt =
      ofDigits (overwritten (img.readValue (.cell ⟨.memory, tag⟩)).toInt writes) ∧
    (∀ (img : Image) (j : Nat), 64 ≤ j → img.readPoint (.memoryBit tag j) = false ∧
      ∀ state, img.writePoint (.memoryBit tag j) state = img) ∧
    img.writeDigits tag (writes.filter fun w => w.1 < 64) = img.writeDigits tag writes ∧
    ∀ cell, cell ≠ .word ⟨.memory, tag⟩ → (img.writeDigits tag writes).SameAt img cell := by
  have hdigits : ∀ j < 64, digit ((img.writeDigits tag writes).word ⟨.memory, tag⟩).toInt j =
      overwritten (img.word ⟨.memory, tag⟩).toInt writes j := fun j hj =>
    img.digit_word_writeDigits tag writes hj
  refine ⟨fun j hj => ?_, fun v => ⟨?_, fun hv => ?_⟩, ?_, fun img j hj => ⟨?_, fun state => ?_⟩,
    img.writeDigits_filter tag writes, fun cell => img.sameAt_writeDigits tag writes⟩
  · rw [readPoint_memoryBit _ _ hj]
    exact hdigits j hj
  · rintro rfl
    exact hdigits
  · refine eq_of_digit_eq fun j hj => ?_
    rw [hv j hj]
    exact hdigits j hj
  · exact (toInt_eq_ofDigits _).trans (ofDigits_congr hdigits)
  · exact img.readPoint_memoryBit_of_le tag hj
  · exact img.writePoint_memoryBit_of_le tag hj state

/-- The sign bit and the lowest one, with a write past the word and one that is taken back. -/
example : ((({} : Image).writeDigits ⟨"D", 0⟩
    [(63, true), (64, true), (1, true), (0, true), (1, false)]).readValue
      (.cell ⟨.memory, ⟨"D", 0⟩⟩)).toInt = -9223372036854775807 := by decide

end Image

end Rung
