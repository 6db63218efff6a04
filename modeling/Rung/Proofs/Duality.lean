import Rung.Proofs.Meaning

/-!
# Negated conditions have the dual code

The machine has no command that negates. A negated condition is a tree of the same shape, with dual
operators and negated leaves, and so its code differs command by command: joins have the dual
operator, loads the complemented operand, and stashes stay. Nothing is longer or deeper than before,
and the machine does the same with all values opposite.

* `Command.dual`: the command with the opposite result;
* `Gauge.foldl_feed_map_dual`: a gauge cannot tell commands from their duals;
* `Machine.opposite`, `Machine.step_dual`, `Machine.run_dual`: the machine on dual commands;
* `Condition.code_negate`: one case per kind of tree;
* **`Condition.negate_compiles_to_dual`**: the code of a negated condition.
-/

namespace Rung

/-! ## Dual commands -/

namespace Command

/-- The command with the opposite result: a load of the complement, a join by the dual operator. A
command that computes nothing stays as it is. -/
def dual : Command → Command
  | load operand => load operand.complement
  | stash => stash
  | joinStash op => joinStash op.dual
  | joinTop op => joinTop op.dual
  | duplicate => duplicate
  | apply effect target => apply effect target
  | pop => pop

theorem stackUse_dual (c : Command) : c.dual.stackUse = c.stackUse := by cases c <;> rfl

end Command

namespace Gauge

theorem feed_dual (g : Gauge) (c : Command) : g.feed c.dual = g.feed c := by
  unfold feed
  rw [Command.stackUse_dual]

/-- A gauge cannot tell commands from their duals. -/
theorem foldl_feed_map_dual (g : Gauge) (cs : List Command) :
    (cs.map Command.dual).foldl feed g = cs.foldl feed g := by
  rw [List.foldl_map]
  simp only [feed_dual]

end Gauge

/-! ## The machine on dual commands -/

namespace Machine

/-- The machine with the opposite value in every place of both stacks. -/
def opposite (m : Machine) : Machine :=
  { m with primary := m.primary.map not, secondary := m.secondary.map not }

theorem step_dual (m : Machine) {c : Command} (h : c.Evaluates) :
    m.opposite.step c.dual = ((m.step c).1.opposite, (m.step c).2) := by
  obtain ⟨p, s, img⟩ := m
  cases c with
  | load operand =>
    have hload := img.evaluate_complement operand
    simp [opposite, Command.dual, step_load, hload]
  | stash =>
    cases p with
    | nil | cons a p => rfl
  | joinStash op =>
    rcases p with _ | ⟨b, p⟩
    · rfl
    · cases s with
      | nil => rfl
      | cons a s => simp [opposite, Command.dual, step_joinStash, Operator.not_apply]
  | joinTop op =>
    rcases p with _ | ⟨b, _ | ⟨a, p⟩⟩
    · rfl
    · rfl
    · simp [opposite, Command.dual, step_joinTop, Operator.not_apply]
  | duplicate | apply effect target | pop => exact absurd h id

/-- Dual commands do on opposite values what the commands do, and stop where these stop. -/
theorem run_dual (m : Machine) {cs : List Command} (h : ∀ c ∈ cs, c.Evaluates) :
    m.opposite.run (cs.map Command.dual) = ((m.run cs).1.opposite, (m.run cs).2) := by
  induction cs generalizing m with
  | nil => rfl
  | cons c cs ih =>
    rw [List.forall_mem_cons] at h
    rw [List.map_cons, run, run, step_dual m h.1]
    rcases m.step c with ⟨m', _ | stack⟩
    · exact ih m' h.2
    · rfl

end Machine

/-! ## The code of conditions -/

namespace Condition

theorem isJunction_negate (c : Condition) : c.negate.isJunction = c.isJunction := by
  cases c with
  | leaf b | junction op first second rest => rfl

theorem joined_map_dual (op : Operator) (nested : Bool) (code : List Command) :
    joined op.dual nested (code.map Command.dual) = (joined op nested code).map Command.dual := by
  cases nested with
  | false => simp [joined, Command.dual]
  | true => simp [joined, Command.dual]

mutual

/-- **The code of a negated condition is the dual code.** -/
theorem code_negate : ∀ c : Condition, c.negate.code = c.code.map Command.dual
  | leaf b => by
    rw [negate, code, code, Bit.operand_negate]
    rfl
  | junction op first second rest => by
    rw [negate, code, code, code_negate first, isJunction_negate, code_negate second,
      joined_map_dual, codeRest_negateList op rest, List.map_append, List.map_append]

theorem codeRest_negateList (op : Operator) : ∀ cs : List Condition,
    codeRest op.dual (negateList cs) = (codeRest op cs).map Command.dual
  | [] => rfl
  | c :: cs => by
    rw [negateList, codeRest, codeRest, isJunction_negate, code_negate c, joined_map_dual,
      codeRest_negateList op cs, List.map_append]

end

/-- **Negation compiles to the dual code**, command by command: equally long, equally deep, and with
the opposite value on opposite values. -/
theorem negate_compiles_to_dual (c : Condition) :
    c.negate.code = c.code.map Command.dual ∧
    c.negate.code.length = c.code.length ∧
    (Gauge.ofCommands c.negate.code).peak = (Gauge.ofCommands c.code).peak ∧
    (∀ (g : Gauge) (n : Nat),
      (c.negate.code.take n).foldl Gauge.feed g = (c.code.take n).foldl Gauge.feed g) ∧
    (∀ x ∈ c.code ++ c.negate.code, x.Evaluates) ∧
    ∀ m : Machine,
      m.opposite.run c.negate.code = ((m.run c.code).1.opposite, (m.run c.code).2) := by
  have hdual := c.code_negate
  refine ⟨hdual, ?_, ?_, fun g n => ?_, ?_, fun m => ?_⟩
  · rw [hdual, List.length_map]
  · rw [hdual, Gauge.ofCommands, Gauge.foldl_feed_map_dual, Gauge.ofCommands]
  · rw [hdual, ← List.map_take, Gauge.foldl_feed_map_dual]
  · rw [List.forall_mem_append]
    exact ⟨c.evaluates_of_mem_code, c.negate.evaluates_of_mem_code⟩
  · rw [hdual, Machine.run_dual m c.evaluates_of_mem_code]

end Condition

end Rung
