import Rung.Semantics

/-!
# What a circuit reads and writes

Every device is stored in cells of the image. A circuit writes cells of its targets, and reads
those of its conditions, of the values it moves and of the presets of its targets.

* `Cell`, `Site.cell`, `Word.cells`, `Bit.cells`, `Condition.reads`: the cells behind a device;
* `Output.storage`, `Output.presets`, `Output.Covers`: the cells of what is driven;
* `Action.guards`, `Action.permits`: the interlocks of an action;
* `Action.perform_eq_apply`: an action applies one effect, under the joined value of its guards;
* `Circuit.reads`, `Circuit.writes`;
* `Point.cell`, `Value.cells`, `Target.storage`, `Target.presets`: the same for references, which
  keep the cells of the devices they stand for.
-/

namespace Rung

/-- A stored bit or word. -/
inductive Cell where
  | bit (cell : BitCell)
  | word (cell : WordCell)
  deriving DecidableEq, Repr

/-! ## The cells of devices -/

/-- The cell that stores a bit; the bit of a word is stored with the word. -/
def Site.cell : Site → Cell
  | input tag => .bit ⟨.input, tag⟩
  | relay tag => .bit ⟨.contact, tag⟩
  | memoryBit b => .word ⟨.memory, b.memory.tag⟩

def Word.cells : Word → List Cell
  | memory m => [.word ⟨.memory, m.tag⟩]
  | constant _ _ => []
  | timer tag _ => [.word ⟨.timer, tag⟩]
  | counter tag _ => [.word ⟨.counter, tag⟩]

def Bit.cells : Bit → List Cell
  | contact site _ => [site.cell]
  | compare left _ right => left.cells ++ right.cells

namespace Condition

mutual

def leaves : Condition → List Bit
  | leaf b => [b]
  | junction _ first second rest => first.leaves ++ (second.leaves ++ leavesList rest)

def leavesList : List Condition → List Bit
  | [] => []
  | c :: cs => c.leaves ++ leavesList cs

end

def reads (c : Condition) : List Cell := c.leaves.flatMap Bit.cells

end Condition

/-- The cells of an output. A counter keeps what last drove it beside its current value. -/
def Output.storage : Output → List Cell
  | relay tag _ => [.bit ⟨.contact, tag⟩]
  | memoryBit b _ => [.word ⟨.memory, b.memory.tag⟩]
  | memory m => [.word ⟨.memory, m.tag⟩]
  | timer tag _ => [.word ⟨.timer, tag⟩]
  | counter tag _ => [.word ⟨.counter, tag⟩, .bit ⟨.coil, tag⟩]

def Output.presets : Output → List Cell
  | timer _ preset | counter _ preset => preset.cells
  | relay _ _ | memoryBit _ _ | memory _ => []

/-- Whether an output covers a bit of a memory word, alone or with the whole word. -/
def Output.Covers (tag : Tag) (index : Nat) : Output → Prop
  | memoryBit b _ => b.memory.tag = tag ∧ b.index = index
  | memory m => m.tag = tag
  | relay _ _ | timer _ _ | counter _ _ => False

def Drive.sources : Drive → List Cell
  | write value => value.cells
  | output | set | reset => []

/-! ## The cells of circuits -/

namespace Action

/-- What is done to the output, under whatever interlocks. -/
def how : Action → Drive
  | drive how _ => how
  | interlocked _ action => action.how

def guards : Action → List Condition
  | drive _ _ => []
  | interlocked guard action => guard :: action.guards

/-- Whether all interlocks of an action hold. -/
def permits (img : Image) : Action → Bool
  | drive _ _ => true
  | interlocked guard action => guard.eval img && action.permits img

theorem permits_eq_all (img : Image) (a : Action) :
    a.permits img = a.guards.all (Condition.eval img) := by
  induction a with
  | drive how target => rfl
  | interlocked guard action ih => rw [permits, ih, guards, List.all_cons]

def reads : Action → List Cell
  | drive how target => how.sources ++ target.presets
  | interlocked guard action => guard.reads ++ action.reads

def writes (a : Action) : List Cell := a.target.storage

/-- **An action applies one effect**, gated by the circuit and by all its interlocks. -/
theorem perform_eq_apply (a : Action) (img : Image) (gate : Bool) :
    a.perform img gate = img.apply a.how.effect a.target.target (gate && a.permits img) := by
  induction a generalizing gate with
  | drive how target => rw [perform, permits, Bool.and_true, Action.how, Action.target]
  | interlocked guard action ih => rw [perform, ih, permits, Bool.and_assoc, how, target]

end Action

def Circuit.reads (c : Circuit) : List Cell := c.condition.reads ++ c.actions.flatMap Action.reads

def Circuit.writes (c : Circuit) : List Cell := c.actions.flatMap Action.writes

/-! ## The cells of references -/

def Point.cell : Point → Cell
  | input tag => .bit ⟨.input, tag⟩
  | contact tag => .bit ⟨.contact, tag⟩
  | memoryBit tag _ => .word ⟨.memory, tag⟩

def Value.cells : Value → List Cell
  | constant _ => []
  | cell c => [.word c]

namespace Target

def cell : Target → Cell
  | bit point => point.cell
  | memory tag => .word ⟨.memory, tag⟩
  | timer tag _ => .word ⟨.timer, tag⟩
  | counter tag _ => .word ⟨.counter, tag⟩

/-- The cells of a target: those of its state and, for a counter, of what last drove it. -/
def storage : Target → List Cell
  | bit point => [point.cell]
  | memory tag => [.word ⟨.memory, tag⟩]
  | timer tag _ => [.word ⟨.timer, tag⟩]
  | counter tag _ => [.word ⟨.counter, tag⟩, .bit ⟨.coil, tag⟩]

def presets : Target → List Cell
  | timer _ preset | counter _ preset => preset.cells
  | bit _ | memory _ => []

theorem cell_mem_storage (t : Target) : t.cell ∈ t.storage := by
  cases t <;> exact List.mem_cons_self

/-- Nothing but an output drives the memory of a coil. -/
theorem cell_ne_coil (t : Target) (tag : Tag) : t.cell ≠ .bit ⟨.coil, tag⟩ := by
  cases t with
  | bit point => cases point <;> simp [cell, Point.cell]
  | memory tag | timer tag preset | counter tag preset => simp [cell]

end Target

def Effect.sources : Effect → List Cell
  | write value => value.cells
  | output | set | reset => []

@[simp] theorem Site.cell_point (site : Site) : site.point.cell = site.cell := by cases site <;> rfl

@[simp] theorem Word.cells_value (w : Word) : w.value.cells = w.cells := by cases w <;> rfl

@[simp] theorem Output.storage_target (o : Output) : o.target.storage = o.storage := by
  cases o <;> rfl

@[simp] theorem Output.presets_target (o : Output) : o.target.presets = o.presets := by
  cases o <;> simp [target, Target.presets, presets]

@[simp] theorem Drive.sources_effect (how : Drive) : how.effect.sources = how.sources := by
  cases how <;> simp [effect, Effect.sources, sources]

end Rung
