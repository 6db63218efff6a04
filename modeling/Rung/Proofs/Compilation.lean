import Rung.Compile
import Rung.Proofs.StackDepth
import Rung.Semantics

/-!
# Compiled code computes the meaning of a program

The code of a condition pushes its value and disturbs neither the stacks below nor the image; the
code of an action performs it under the primary top, which stays. From there on the machine follows
the meaning of a program circuit by circuit, and since every circuit leaves the stacks as it found
them, its gauge is balanced and compilation never fails.

* `Machine.run_load`, ..: the machine on each command, with commands still to come;
* `Command.Evaluates`, `Condition.evaluates_of_mem_code`: the commands of conditions;
* `Condition.run_code`, `Action.run_code`, `Circuit.run_code`: code against meaning, on any stacks;
* `Circuit.compile_eq`, `Sequence.exists_addUnits`: compilation succeeds;
* `Program.upright`: the same program with every output written without its mark of inversion;
* **`execute_compile`**: one scan of the compiled program has the meaning of the program.
-/

namespace Rung

namespace Operator

theorem apply_assoc (op : Operator) (a b c : Bool) :
    op.apply (op.apply a b) c = op.apply a (op.apply b c) := by
  cases op <;> cases a <;> rfl

theorem apply_neutral (op : Operator) (a : Bool) : op.apply a op.neutral = a := by
  cases op <;> cases a <;> rfl

end Operator

/-! ## The machine, command by command -/

namespace Machine

variable (p s : List Bool) (a b : Bool) (img : Image) (cs : List Command)

theorem run_load (operand : Operand) :
    run ⟨p, s, img⟩ (.load operand :: cs) = run ⟨img.evaluate operand :: p, s, img⟩ cs := rfl

theorem run_stash : run ⟨a :: p, s, img⟩ (.stash :: cs) = run ⟨p, a :: s, img⟩ cs := rfl

theorem run_joinStash (op : Operator) :
    run ⟨b :: p, a :: s, img⟩ (.joinStash op :: cs) = run ⟨op.apply a b :: p, s, img⟩ cs := rfl

theorem run_joinTop (op : Operator) :
    run ⟨b :: a :: p, s, img⟩ (.joinTop op :: cs) = run ⟨op.apply a b :: p, s, img⟩ cs := rfl

theorem run_duplicate :
    run ⟨a :: p, s, img⟩ (.duplicate :: cs) = run ⟨a :: a :: p, s, img⟩ cs := rfl

theorem run_apply (effect : Effect) (target : Target) :
    run ⟨a :: p, s, img⟩ (.apply effect target :: cs) =
      run ⟨a :: p, s, img.apply effect target a⟩ cs := rfl

theorem run_pop : run ⟨a :: p, s, img⟩ (.pop :: cs) = run ⟨p, s, img⟩ cs := rfl

variable {p s} in
theorem run_flatMap {α : Type} {code : α → List Command} {act : Image → α → Image}
    (h : ∀ a img cs, run ⟨p, s, img⟩ (code a ++ cs) = run ⟨p, s, act img a⟩ cs) (as : List α) :
    run ⟨p, s, img⟩ (as.flatMap code ++ cs) = run ⟨p, s, as.foldl act img⟩ cs := by
  induction as generalizing img with
  | nil => rfl
  | cons a as ih => rw [List.flatMap_cons, List.append_assoc, h, ih, List.foldl_cons]

end Machine

/-! ## Conditions -/

/-- The commands that conditions are evaluated with: loads, stashes and joins. -/
def Command.Evaluates : Command → Prop
  | load _ | stash | joinStash _ | joinTop _ => True
  | duplicate | apply _ _ | pop => False

namespace Condition

theorem evaluates_of_mem_joined {op : Operator} {nested : Bool} {code : List Command}
    (h : ∀ x ∈ code, x.Evaluates) : ∀ x ∈ joined op nested code, x.Evaluates := by
  intro x hx
  cases nested with
  | false =>
    obtain hcode | rfl : x ∈ code ∨ x = .joinTop op := by simpa [joined] using hx
    · exact h x hcode
    · trivial
  | true =>
    obtain rfl | hcode | rfl : x = .stash ∨ x ∈ code ∨ x = .joinStash op := by
      simpa [joined] using hx
    · trivial
    · exact h x hcode
    · trivial

mutual

theorem evaluates_of_mem_code : ∀ (c : Condition), ∀ x ∈ c.code, x.Evaluates
  | leaf b => by
    rw [code, List.forall_mem_singleton]
    trivial
  | junction op first second rest => by
    rw [code, List.forall_mem_append, List.forall_mem_append]
    exact ⟨evaluates_of_mem_code first, evaluates_of_mem_joined (evaluates_of_mem_code second),
      evaluates_of_mem_codeRest op rest⟩

theorem evaluates_of_mem_codeRest (op : Operator) : ∀ (cs : List Condition),
    ∀ x ∈ codeRest op cs, x.Evaluates
  | [] => fun _ hx => absurd hx List.not_mem_nil
  | c :: cs => by
    rw [codeRest, List.forall_mem_append]
    exact ⟨evaluates_of_mem_joined (evaluates_of_mem_code c), evaluates_of_mem_codeRest op cs⟩

end

/-- Code that pushes a value joins it to a partial result, whether or not that is stashed away in
the meantime. -/
theorem run_joined {img : Image} {code : List Command} {w : Bool}
    (h : ∀ p s cs, Machine.run ⟨p, s, img⟩ (code ++ cs) = Machine.run ⟨w :: p, s, img⟩ cs)
    (op : Operator) (nested : Bool) (v : Bool) (p s : List Bool) (cs : List Command) :
    Machine.run ⟨v :: p, s, img⟩ (joined op nested code ++ cs) =
      Machine.run ⟨op.apply v w :: p, s, img⟩ cs := by
  cases nested with
  | false =>
    rw [joined, if_neg Bool.false_ne_true, List.append_assoc, h]
    exact Machine.run_joinTop p s v w img cs op
  | true =>
    rw [joined, if_pos rfl, List.cons_append, List.append_assoc, Machine.run_stash, h]
    exact Machine.run_joinStash p s v w img cs op

mutual

/-- **The code of a condition pushes its value**, on any stacks and whatever follows. -/
theorem run_code (img : Image) : ∀ (c : Condition) (p s : List Bool) (cs : List Command),
    Machine.run ⟨p, s, img⟩ (c.code ++ cs) = Machine.run ⟨c.eval img :: p, s, img⟩ cs
  | leaf b, p, s, cs => Machine.run_load p s img cs b.operand
  | junction op first second rest, p, s, cs => by
    rw [code, List.append_assoc, run_code img first, List.append_assoc,
      run_joined (run_code img second), run_codeRest img op rest, Operator.apply_assoc, eval]

theorem run_codeRest (img : Image) (op : Operator) :
    ∀ (ds : List Condition) (v : Bool) (p s : List Bool) (cs : List Command),
      Machine.run ⟨v :: p, s, img⟩ (codeRest op ds ++ cs) =
        Machine.run ⟨op.apply v (evalList img op ds) :: p, s, img⟩ cs
  | [], v, p, s, cs => by
    rw [codeRest, evalList, Operator.apply_neutral, List.nil_append]
  | d :: ds, v, p, s, cs => by
    rw [codeRest, List.append_assoc, run_joined (run_code img d), run_codeRest img op ds,
      Operator.apply_assoc, evalList]

end

end Condition

/-! ## Actions and circuits -/

/-- **The code of an action performs it** under the gate on top, which stays. -/
theorem Action.run_code (a : Action) (gate : Bool) (p s : List Bool) (img : Image)
    (cs : List Command) :
    Machine.run ⟨gate :: p, s, img⟩ (a.code ++ cs) =
      Machine.run ⟨gate :: p, s, a.perform img gate⟩ cs := by
  induction a generalizing gate p cs with
  | drive how target => exact Machine.run_apply p s gate img cs how.effect target.target
  | interlocked guard action ih =>
    -- the copy on top becomes the gate of the inner action and is dropped after it
    rw [code, List.cons_append, Machine.run_duplicate, List.append_assoc, Condition.run_code,
      List.cons_append, Machine.run_joinTop, List.append_assoc, ih]
    exact Machine.run_pop (gate :: p) s _ _ cs

namespace Circuit

/-- **The code of a circuit has its meaning** and leaves both stacks as they were. -/
theorem run_code (c : Circuit) (p s : List Bool) (img : Image) (cs : List Command) :
    Machine.run ⟨p, s, img⟩ (c.code ++ cs) = Machine.run ⟨p, s, c.scan img⟩ cs := by
  have hactions := Machine.run_flatMap img ([.pop] ++ cs)
    (fun a img' cs' => a.run_code (c.condition.eval img) p s img' cs') c.actions
  rw [code, List.append_assoc, Condition.run_code, List.append_assoc, hactions]
  exact Machine.run_pop p s _ _ cs

/-! ## Compilation succeeds -/

/-- What the machine runs from empty stacks passes the check for the depth it ends at. -/
theorem verify_of_run (place : Location) (message : String) {commands : List Command} {img : Image}
    {m : Machine} (h : Machine.run { image := img } commands = (m, none)) :
    verify place commands m.depth message = .ok () := by
  obtain ⟨hu, hg⟩ := Gauge.of_run h
  rw [verify, hu, hg]
  simp

/-- Every circuit is balanced, so its code is what compilation gives. -/
theorem compile_eq (place : Location) (c : Circuit) : c.compile place = .ok c.code := by
  have hcondition := Condition.run_code {} c.condition [] [] []
  have hcircuit := c.run_code [] [] {} []
  rw [List.append_nil] at hcondition hcircuit
  have h₁ := verify_of_run place "Condition must leave exactly one value" hcondition
  have h₂ := verify_of_run place "Circuit must leave both stacks empty" hcircuit
  simp only [Machine.depth, List.length_cons, List.length_nil, Nat.zero_add] at h₁ h₂
  rw [compile, h₁, h₂]
  rfl

end Circuit

namespace Sequence

theorem addCircuits_cons (s : Sequence) (unit : String) (index : Nat) (c : Circuit)
    (cs : List Circuit) :
    s.addCircuits unit index (c :: cs) =
      ((s.recordDepth (Gauge.ofCommands c.code).peak).addBlock unit index c.code).addCircuits
        unit (index + 1) cs := by
  rw [addCircuits, Circuit.compile_eq]
  rfl

theorem exists_addCircuits (unit : String) : ∀ (cs : List Circuit) (s : Sequence) (index : Nat),
    ∃ s', s.addCircuits unit index cs = .ok s' ∧
      s'.commands = s.commands ++ cs.flatMap Circuit.code
  | [], s, _ => ⟨s, rfl, by simp⟩
  | c :: cs, s, index => by
    obtain ⟨s', hs', hc⟩ := exists_addCircuits unit cs
      ((s.recordDepth (Gauge.ofCommands c.code).peak).addBlock unit index c.code) (index + 1)
    refine ⟨s', by rw [addCircuits_cons, hs'], ?_⟩
    rw [hc, List.flatMap_cons, ← List.append_assoc]
    rfl

theorem exists_addUnits : ∀ (units : List (String × LogicUnit)) (s : Sequence),
    ∃ s', s.addUnits units = .ok s' ∧
      s'.commands = s.commands ++ units.flatMap fun (_, u) => u.circuits.flatMap Circuit.code
  | [], s => ⟨s, rfl, by simp⟩
  | (name, u) :: units, s => by
    obtain ⟨s₁, hs₁, hc₁⟩ := exists_addCircuits name u.circuits s 0
    obtain ⟨s₂, hs₂, hc₂⟩ := exists_addUnits units s₁
    refine ⟨s₂, ?_, ?_⟩
    · rw [addUnits, hs₁]
      exact hs₂
    · rw [hc₂, hc₁, List.flatMap_cons, List.append_assoc]

end Sequence

/-! ## Whole scans -/

theorem LogicUnit.run_code (u : LogicUnit) (p s : List Bool) (img : Image) (cs : List Command) :
    Machine.run ⟨p, s, img⟩ (u.circuits.flatMap Circuit.code ++ cs) =
      Machine.run ⟨p, s, u.scan img⟩ cs :=
  Machine.run_flatMap img cs (fun c img' cs' => c.run_code p s img' cs') u.circuits

theorem exists_addUnits_execute (units : List (String × LogicUnit)) :
    ∃ s, Sequence.addUnits {} units = .ok s ∧ ∀ img,
      execute s.commands img = (units.foldl (fun img (_, u) => u.scan img) img, none) := by
  obtain ⟨s, hs, hc⟩ := Sequence.exists_addUnits units {}
  refine ⟨s, hs, fun img => ?_⟩
  have hrun := Machine.run_flatMap img []
    (fun (nu : String × LogicUnit) img' cs' => nu.2.run_code [] [] img' cs') units
  rw [List.append_nil] at hrun
  rw [execute, hc, List.nil_append, hrun]
  rfl

theorem Program.unitList_ascending (p : Program) : p.unitList.Pairwise fun a b => a.1 < b.1 := by
  refine Std.ExtTreeMap.ordered_keys_toList.imp fun h => ?_
  exact compareOfLessAndEq_eq_lt.mp h

/-! ## The polarity of an output -/

/-- The output without its mark of inversion. -/
def Output.upright : Output → Output
  | relay tag _ => relay tag false
  | memoryBit bit _ => memoryBit bit false
  | memory word => memory word
  | timer tag preset => timer tag preset
  | counter tag preset => counter tag preset

def Action.upright : Action → Action
  | drive how target => drive how target.upright
  | interlocked guard action => interlocked guard action.upright

def Circuit.upright (c : Circuit) : Circuit := { c with actions := c.actions.map Action.upright }

def LogicUnit.upright (u : LogicUnit) : LogicUnit :=
  { u with circuits := u.circuits.map Circuit.upright }

def Program.upright (p : Program) : Program :=
  { p with units := p.units.map fun _ u => u.upright }

theorem Output.target_upright (o : Output) : o.upright.target = o.target := by cases o <;> rfl

theorem Action.code_upright (a : Action) : a.upright.code = a.code := by
  induction a with
  | drive how target => rw [upright, code, code, Output.target_upright]
  | interlocked guard action ih => rw [upright, code, code, ih]

theorem Circuit.code_upright (c : Circuit) : c.upright.code = c.code := by
  rw [code, code, upright, List.flatMap_map]
  simp only [Action.code_upright]

theorem Sequence.addCircuits_upright (unit : String) (cs : List Circuit) (s : Sequence)
    (index : Nat) :
    s.addCircuits unit index (cs.map Circuit.upright) = s.addCircuits unit index cs := by
  induction cs generalizing s index with
  | nil => rfl
  | cons c cs ih => rw [List.map_cons, addCircuits_cons, addCircuits_cons, ih, Circuit.code_upright]

theorem Sequence.addUnits_upright (units : List (String × LogicUnit)) (s : Sequence) :
    s.addUnits (units.map fun (name, u) => (name, u.upright)) = s.addUnits units := by
  induction units generalizing s with
  | nil => rfl
  | cons nu units ih =>
    obtain ⟨name, u⟩ := nu
    rw [List.map_cons, addUnits, addUnits, LogicUnit.upright, addCircuits_upright]
    simp only [ih]

theorem LogicUnit.compile_upright (u : LogicUnit) : u.upright.compile = u.compile :=
  Sequence.addUnits_upright [(u.name, u)] {}

theorem Program.compile_upright (p : Program) : p.upright.compile = p.compile := by
  rw [compile, compile, unitList, unitList, upright, Std.ExtTreeMap.toList_map]
  exact Sequence.addUnits_upright p.units.toList {}

/-- **Compiled code computes the meaning of its source.** The inversion of an output leaves no
trace. -/
theorem execute_compile :
    (∀ p : Program, p.unitList.Pairwise (fun a b => a.1 < b.1) ∧
      p.upright.compile = p.compile ∧
      ∃ s, p.compile = .ok s ∧ ∀ img, execute s.commands img = (p.scan img, none)) ∧
    (∀ u : LogicUnit, u.upright.compile = u.compile ∧
      ∃ s, u.compile = .ok s ∧ ∀ img, execute s.commands img = (u.scan img, none)) := by
  refine ⟨fun p => ⟨p.unitList_ascending, p.compile_upright, ?_⟩,
    fun u => ⟨u.compile_upright, ?_⟩⟩
  · exact exists_addUnits_execute p.unitList
  · exact exists_addUnits_execute [(u.name, u)]

end Rung
