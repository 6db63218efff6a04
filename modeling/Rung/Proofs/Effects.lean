import Rung.Proofs.Entries
import Rung.Proofs.Timers

/-!
# The table of effects

What an effect does is told by a table, with one line for each kind of target: what the target shows
afterwards, from what the image showed before. Numbers are integers here, so counting that left the
64-bit range would not fit the table.

* `Reading`, `Image.reading`: what a target shows;
* `Image.tabled`: the table;
* `Target.shown`, `Image.reading_store`: one lemma for the effects that give a target a value;
* `Image.reading_drive`, `Image.bit_coil_drive`: outputs;
* **`Image.apply_follows_table`**: every effect follows the table and changes nothing else.
-/

namespace Rung

/-! ## The table -/

/-- What is read off a target: the state of a bit, or the number in a word. -/
inductive Reading where
  | state (on : Bool)
  | number (n : Int)
  deriving DecidableEq, Repr

def Value.number (img : Image) (v : Value) : Int := (img.readValue v).toInt

namespace Image

def reading (img : Image) : Target → Reading
  | .bit point => .state (img.readPoint point)
  | .memory tag => .number (img.word ⟨.memory, tag⟩).toInt
  | .timer tag _ => .number (img.word ⟨.timer, tag⟩).toInt
  | .counter tag _ => .number (img.word ⟨.counter, tag⟩).toInt

/-- What a target shows after an effect that acts on it. Whatever the effect needs is read off the
image before: the current value, what last drove a counter, the preset, the value to be moved. -/
def tabled (img : Image) (on : Bool) : Effect → Target → Reading
  | .output, .bit _ => .state on
  | .output, .memory _ => .number (if on then 1 else 0)
  | .output, .timer tag preset =>
    let current := (img.word ⟨.timer, tag⟩).toInt
    .number (if on then (if current < preset.number img then current + 1 else current) else 0)
  | .output, .counter tag preset =>
    let current := (img.word ⟨.counter, tag⟩).toInt
    let rises := on = true ∧ img.bit ⟨.coil, tag⟩ = false
    .number (if rises ∧ current < preset.number img then current + 1 else current)
  | .set, .bit _ => .state true
  | .set, .memory _ => .number 1
  | .set, .timer _ preset | .set, .counter _ preset => .number (preset.number img)
  | .reset, .bit _ => .state false
  | .reset, .memory _ | .reset, .timer _ _ | .reset, .counter _ _ => .number 0
  | .write value, .bit _ => .state (value.number img != 0)
  | .write value, .memory _ | .write value, .timer _ _ | .write value, .counter _ _ =>
    .number (value.number img)

end Image

/-! ## Effects that give a value -/

/-- What a target shows once it has a value; a bit is ON unless the value is 0. -/
def Target.shown (value : Int64) : Target → Reading
  | bit _ => .state (value.toInt != 0)
  | memory _ | timer _ _ | counter _ _ => .number value.toInt

theorem bne_zero_eq_toInt_bne_zero (value : Int64) : (value != 0) = (value.toInt != 0) := by
  rw [Bool.eq_iff_iff, bne_iff_ne, bne_iff_ne, ← Int64.toInt_zero, ne_eq, ne_eq, Int64.toInt_inj]

namespace Image

variable (img : Image) {t : Target}

theorem reading_writePoint {point : Point} (state : Bool)
    (h : ∀ tag index, Target.bit point = .bit (.memoryBit tag index) → index < 64) :
    (img.writePoint point state).reading (.bit point) = .state state := by
  have hpoint : ∀ tag index, point = .memoryBit tag index → index < 64 := fun tag index he =>
    h tag index (congrArg Target.bit he)
  rw [reading, img.readPoint_writePoint_self state hpoint]

theorem reading_store (value : Int64)
    (h : ∀ tag index, t = .bit (.memoryBit tag index) → index < 64) :
    (img.store value t).reading t = t.shown value := by
  cases t with
  | bit point =>
    rw [store, img.reading_writePoint _ h, bne_zero_eq_toInt_bne_zero, Target.shown]
  | memory tag | timer tag preset | counter tag preset =>
    rw [store, reading, word_setWord, if_pos rfl, Target.shown]

theorem tabled_set (on : Bool) (t : Target) : img.tabled on .set t = t.shown (img.latched t) := by
  cases t <;> rfl

theorem tabled_reset (on : Bool) (t : Target) : img.tabled on .reset t = t.shown 0 := by
  cases t <;> rfl

theorem tabled_write (on : Bool) (value : Value) (t : Target) :
    img.tabled on (.write value) t = t.shown (img.readValue value) := by
  cases t <;> rfl

/-! ## Outputs -/

theorem reading_drive (on : Bool)
    (h : ∀ tag index, t = .bit (.memoryBit tag index) → index < 64) :
    (img.drive t on).reading t = img.tabled on .output t := by
  cases t with
  | bit point => rw [drive, img.reading_writePoint _ h, tabled]
  | memory tag =>
    rw [drive, reading, word_setWord, if_pos rfl, tabled]
    cases on <;> rfl
  | timer tag preset =>
    rw [drive, reading, word_setWord, if_pos rfl, tabled]
    cases on with
    | false => rfl
    | true => exact congrArg Reading.number (toInt_advance _ _)
  | counter tag preset =>
    rw [drive, reading, word_setWord, if_pos rfl, tabled]
    cases on with
    | false => simp
    | true =>
      -- the edge is seen against the coil as the image stores it
      cases img.bit ⟨.coil, tag⟩ with
      | true => simp
      | false => simp [toInt_advance, Value.number]

theorem bit_coil_drive (tag : Tag) (preset : Value) (on : Bool) :
    (img.drive (.counter tag preset) on).bit ⟨.coil, tag⟩ = on := by
  change (img.setBit ⟨.coil, tag⟩ on).bit ⟨.coil, tag⟩ = on
  rw [bit_setBit, if_pos rfl]

/-! ## All effects -/

/-- **Every effect follows the table**, and changes nothing but its target. -/
theorem apply_follows_table (effect : Effect) (t : Target) (on : Bool)
    (h : ∀ tag index, t = .bit (.memoryBit tag index) → index < 64) :
    (effect = .output ∨ on = true →
      (img.apply effect t on).reading t = img.tabled on effect t) ∧
    (∀ tag preset, effect = .output → t = .counter tag preset →
      (img.apply effect t on).bit ⟨.coil, tag⟩ = on) ∧
    (effect ≠ .output → on = false → img.apply effect t on = img) ∧
    (∀ cell, cell ∉ t.storage → (img.apply effect t on).SameAt img cell) ∧
    (effect ≠ .output → ∀ cell, cell ≠ t.cell → (img.apply effect t on).SameAt img cell) ∧
    (∀ point other, t = .bit point → point ≠ other →
      (img.apply effect t on).readPoint other = img.readPoint other) := by
  refine ⟨fun hacts => ?_, ?_, fun hother hoff => ?_, fun cell hcell => ?_,
    fun hother cell hcell => ?_, ?_⟩
  · cases effect with
    | output => exact img.reading_drive on h
    | set =>
      obtain rfl : on = true := by simpa using hacts
      rw [tabled_set, ← img.reading_store _ h, ← latch_eq_store]
      rfl
    | reset =>
      obtain rfl : on = true := by simpa using hacts
      rw [tabled_reset, ← img.reading_store _ h]
      rfl
    | write value =>
      obtain rfl : on = true := by simpa using hacts
      rw [tabled_write, ← img.reading_store _ h]
      rfl
  · rintro tag preset rfl rfl
    exact img.bit_coil_drive tag preset on
  · subst hoff
    cases effect with
    | output => exact absurd rfl hother
    | set | reset | write value => rfl
  · exact img.sameAt_apply effect on hcell
  · exact img.sameAt_apply_of_ne_output on hother hcell
  · rintro point other rfl hne
    obtain he | ⟨state, he⟩ := img.apply_bit_cases effect point on
    · rw [he]
    · rw [he, img.readPoint_writePoint_of_ne state hne]

end Image

def filledImage : Image :=
  (({} : Image).setWord ⟨.memory, ⟨"D", 0⟩⟩ 4).setWord ⟨.timer, ⟨"T", 0⟩⟩ 3

/-- A word moved into its own sign bit, and a timer that is its own preset. -/
theorem apply_follows_table_filledImage :
    (filledImage.apply (.write (.cell ⟨.memory, ⟨"D", 0⟩⟩)) (.bit (.memoryBit ⟨"D", 0⟩ 63))
      true).reading (.bit (.memoryBit ⟨"D", 0⟩ 63)) = .state true ∧
    (filledImage.apply (.write (.cell ⟨.memory, ⟨"D", 0⟩⟩)) (.bit (.memoryBit ⟨"D", 0⟩ 63))
      true).readPoint (.memoryBit ⟨"D", 0⟩ 2) = true ∧
    (filledImage.apply .output (.timer ⟨"T", 0⟩ (.cell ⟨.timer, ⟨"T", 0⟩⟩)) true).reading
      (.timer ⟨"T", 0⟩ (.cell ⟨.timer, ⟨"T", 0⟩⟩)) = .number 3 := by
  have hbit := filledImage.apply_follows_table (.write (.cell ⟨.memory, ⟨"D", 0⟩⟩))
    (.bit (.memoryBit ⟨"D", 0⟩ 63)) true (by rintro tag index ⟨⟩; decide)
  have htimer := filledImage.apply_follows_table .output
    (.timer ⟨"T", 0⟩ (.cell ⟨.timer, ⟨"T", 0⟩⟩)) true nofun
  refine ⟨(hbit.1 (.inr rfl)).trans (by decide), ?_, (htimer.1 (.inl rfl)).trans (by decide)⟩
  exact (hbit.2.2.2.2.2 _ (.memoryBit ⟨"D", 0⟩ 2) rfl (by decide)).trans (by decide)

end Rung
