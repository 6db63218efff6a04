import Rung.Proofs.Bounds
import Rung.Proofs.Exchange
import Rung.Proofs.Meaning

/-!
# Interlocks are conjunctions

An interlock gates an action with a further condition, on top of the condition of its circuit and of
the interlocks around it. So interlocks within each other are one interlock with all their guards,
and the interlock of a circuit's only action can go into its condition. The code differs, what it
does is the same. Within a circuit, a guard gates its own action and no other one.

* `Action.under`, `Action.perform_under`: an action under some interlocks;
* `Application`, `Machine.applied`: what a run applies, under which gate and to which image;
* `Circuit.applied_code`: the code of a circuit applies its turns;
* **`interlocks_are_conjunctions`**.
-/

namespace Rung

/-! ## Actions under interlocks -/

namespace Action

/-- The action under some interlocks, the first one outermost. -/
def under (guards : List Condition) (a : Action) : Action := guards.foldr interlocked a

theorem perform_under (img : Image) (gate : Bool) (guards : List Condition) (a : Action) :
    (a.under guards).perform img gate =
      a.perform img (gate && guards.all (Condition.eval img)) := by
  induction guards generalizing gate with
  | nil => rw [List.all_nil, Bool.and_true, under, List.foldr_nil]
  | cons guard guards ih =>
    rw [under, List.foldr_cons, ← under, perform, ih, List.all_cons, Bool.and_assoc]

/-- Some interlocks can be replaced by one whose guard joins their guards. -/
theorem perform_under_eq_interlocked {guards : List Condition} {joined : Condition}
    (h : Condition.all guards = some joined) (img : Image) (gate : Bool) (a : Action) :
    (a.under guards).perform img gate = (interlocked joined a).perform img gate := by
  rw [perform_under, perform, Condition.eval_gather img h, Condition.evalList_and]

end Action

/-- Circuits that differ in one action can stand for each other, if the two actions do the same under
every gate. -/
theorem interchangeable_of_perform_eq {a b : Action}
    (h : ∀ img gate, a.perform img gate = b.perform img gate) (condition : Condition)
    (before after : List Action) :
    Interchangeable [⟨condition, before ++ a :: after⟩] [⟨condition, before ++ b :: after⟩] := by
  refine interchangeable_of_foldl_scan_eq fun img => ?_
  simp only [List.foldl_cons, List.foldl_nil, Circuit.scan, List.foldl_append, h]

/-! ## What a run applies -/

/-- An effect applied to a target, with the gate it is applied under and the image it finds. -/
structure Application where
  effect : Effect
  target : Target
  gate : Bool
  image : Image
  deriving DecidableEq

namespace Machine

def applies (m : Machine) : Command → List Application
  | .apply effect target => m.primary.head?.toList.map fun gate => ⟨effect, target, gate, m.image⟩
  | _ => []

/-- What a run of some commands applies, up to the first that underflows. -/
def applied (m : Machine) : List Command → List Application
  | [] => []
  | c :: cs =>
    match m.step c with
    | (m', none) => m.applies c ++ m'.applied cs
    | (_, some _) => []

theorem applied_append_of_run {m m' : Machine} {cs : List Command} (h : m.run cs = (m', none))
    (ds : List Command) : m.applied (cs ++ ds) = m.applied cs ++ m'.applied ds := by
  induction cs generalizing m with
  | nil =>
    cases h
    rfl
  | cons c cs ih =>
    obtain ⟨m₁, hstep, h⟩ := exists_step_of_run h
    rw [List.cons_append, applied, applied, hstep]
    simp only [ih h, List.append_assoc]

theorem applied_eq_nil {cs : List Command} (h : ∀ effect target, .apply effect target ∉ cs)
    (m : Machine) : m.applied cs = [] := by
  induction cs generalizing m with
  | nil => rfl
  | cons c cs ih =>
    have hcs : ∀ effect target, .apply effect target ∉ cs := fun effect target hmem =>
      h effect target (List.mem_cons_of_mem c hmem)
    have hc : m.applies c = [] := by
      cases c with
      | apply effect target => exact absurd List.mem_cons_self (h effect target)
      | load _ | stash | joinStash _ | joinTop _ | duplicate | pop => rfl
    rw [applied]
    rcases m.step c with ⟨m', _ | stack⟩
    · simp only [hc, ih hcs m', List.nil_append]
    · rfl

section Commands

variable (p s : List Bool) (a b : Bool) (img : Image) (cs : List Command)

theorem applied_apply (effect : Effect) (target : Target) :
    applied ⟨a :: p, s, img⟩ (.apply effect target :: cs) =
      ⟨effect, target, a, img⟩ :: applied ⟨a :: p, s, img.apply effect target a⟩ cs := rfl

theorem applied_duplicate :
    applied ⟨a :: p, s, img⟩ (.duplicate :: cs) = applied ⟨a :: a :: p, s, img⟩ cs := rfl

theorem applied_joinTop (op : Operator) :
    applied ⟨b :: a :: p, s, img⟩ (.joinTop op :: cs) = applied ⟨op.apply a b :: p, s, img⟩ cs := rfl

theorem applied_pop : applied ⟨a :: p, s, img⟩ (.pop :: cs) = applied ⟨p, s, img⟩ cs := rfl

end Commands

end Machine

/-! ## What the code of a circuit applies -/

theorem Condition.applied_code (c : Condition) (p s : List Bool) (img : Image)
    (cs : List Command) :
    Machine.applied ⟨p, s, img⟩ (c.code ++ cs) = Machine.applied ⟨c.eval img :: p, s, img⟩ cs := by
  have hrun := c.run_code img p s []
  rw [List.append_nil] at hrun
  rw [Machine.applied_append_of_run hrun,
    Machine.applied_eq_nil fun effect target => apply_notMem_code effect target c]
  rfl

def Turn.application (t : Turn) : Application where
  effect := t.action.how.effect
  target := t.action.target.target
  gate := t.gate
  image := t.image

namespace Action

theorem application_turn_drive (how : Drive) (target : Output) (gate : Bool) (img : Image) :
    ((drive how target).turn gate img).application =
      ⟨how.effect, target.target, gate, img⟩ := by
  simp [Turn.application, turn, permits, Action.how, Action.target]

theorem application_turn_interlocked (guard : Condition) (a : Action) (gate : Bool) (img : Image) :
    ((interlocked guard a).turn gate img).application =
      (a.turn (gate && guard.eval img) img).application := by
  simp [Turn.application, turn, permits, Action.how, Action.target, Bool.and_assoc]

/-- **The code of an action applies its turn** under the gate on top. -/
theorem applied_code (a : Action) (gate : Bool) (p s : List Bool) (img : Image)
    (cs : List Command) :
    Machine.applied ⟨gate :: p, s, img⟩ (a.code ++ cs) =
      (a.turn gate img).application :: Machine.applied ⟨gate :: p, s, a.perform img gate⟩ cs := by
  induction a generalizing gate p cs with
  | drive how target =>
    rw [application_turn_drive]
    exact Machine.applied_apply p s gate img cs how.effect target.target
  | interlocked guard action ih =>
    rw [code, List.cons_append, Machine.applied_duplicate, List.append_assoc,
      Condition.applied_code, List.cons_append, Machine.applied_joinTop, List.append_assoc, ih,
      application_turn_interlocked]
    exact congrArg (_ :: ·) (Machine.applied_pop (gate :: p) s _ _ cs)

theorem applied_flatMap_code (value : Bool) (p s : List Bool) (cs : List Command)
    (as : List Action) (img : Image) :
    Machine.applied ⟨value :: p, s, img⟩ (as.flatMap code ++ cs) =
      (noted (fun img a => a.perform img value) (fun img a => [a.turn value img]) img as).map
          Turn.application ++
        Machine.applied ⟨value :: p, s, as.foldl (fun img a => a.perform img value) img⟩ cs := by
  induction as generalizing img with
  | nil => rfl
  | cons a as ih =>
    rw [List.flatMap_cons, List.append_assoc, applied_code, ih, noted, List.map_append,
      List.append_assoc]
    rfl

end Action

/-- **The code of a circuit applies its turns**, one after another, on any stacks. -/
theorem Circuit.applied_code (c : Circuit) (p s : List Bool) (img : Image) :
    Machine.applied ⟨p, s, img⟩ c.code = (c.turns img).map Turn.application := by
  rw [code, Condition.applied_code, Action.applied_flatMap_code, Machine.applied_pop,
    Machine.applied, List.append_nil, turns]

/-- The gate of a turn is made of the circuit's condition and the guards of its own action. -/
theorem Circuit.gate_of_mem_turns {c : Circuit} {img : Image} {t : Turn} (h : t ∈ c.turns img) :
    t.gate = (c.condition.eval img && t.action.guards.all (Condition.eval t.image)) := by
  obtain ⟨_, a, _, -, ht⟩ := exists_of_mem_noted h
  obtain rfl := List.mem_singleton.mp ht
  rw [← Action.permits_eq_all]
  rfl

/-- **Interlocks are conjunctions** of their guards, and with the condition of the circuit. Each
action is applied once, under its own guards and on the image it is applied to. -/
theorem interlocks_are_conjunctions :
    (∀ (condition : Condition) (before after : List Action) (outer : List Condition)
        (guard : Condition) (guards : List Condition) (a : Action),
      ∃ joined, Condition.all (guard :: guards) = some joined ∧
        Interchangeable
          [⟨condition, before ++ (a.under (guard :: guards)).under outer :: after⟩]
          [⟨condition, before ++ (Action.interlocked joined a).under outer :: after⟩]) ∧
    (∀ (condition guard : Condition) (a : Action),
      Interchangeable [⟨condition, [.interlocked guard a]⟩] [⟨condition.and guard, [a]⟩]) ∧
    ∀ (c : Circuit) (place : Location) (p s : List Bool) (img : Image),
      ∃ (code : List Command) (turns : List Turn), c.compile place = .ok code ∧
        Machine.applied ⟨p, s, img⟩ code = turns.map Turn.application ∧
        turns.map Turn.action = c.actions ∧
        ∀ t ∈ turns, t.gate =
          (c.condition.eval img && t.action.guards.all (Condition.eval t.image)) := by
  refine ⟨fun condition before after outer guard guards a => ?_, fun condition guard a => ?_,
    fun c place p s img => ?_⟩
  · refine ⟨_, Condition.gather_cons .and guard guards, ?_⟩
    refine interchangeable_of_perform_eq (fun img gate => ?_) condition before after
    rw [Action.perform_under img gate outer, Action.perform_under img gate outer,
      Action.perform_under_eq_interlocked (Condition.gather_cons .and guard guards)]
  · refine interchangeable_of_foldl_scan_eq fun img => ?_
    have hjoin : (condition.and guard).eval img = (condition.eval img && guard.eval img) :=
      Condition.eval_combine img .and condition guard
    simp only [List.foldl_cons, List.foldl_nil, Circuit.scan, Action.perform, hjoin]
  · exact ⟨c.code, c.turns img, c.compile_eq place, c.applied_code p s img,
      c.map_action_turns img, fun t ht => Circuit.gate_of_mem_turns ht⟩

end Rung
