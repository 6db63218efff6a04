import Rung.Proofs.Blocks

/-!
# The stacks that compiled code needs

How deep the stacks get can be read off a source. Two primary places are enough for any condition:
the partial result is stashed away before a further child that is a junction is evaluated, so only
the secondary stack grows with nesting, and the first child costs nothing. Every interlock keeps one
more copy of the gate below its guard.

* `Condition.primaryDepth`, `Condition.secondaryDepth`, `Circuit.primaryDepth`,
  `Circuit.secondaryDepth`: the depths in closed form;
* `Gauge.feed_load`, ..: a gauge on each command that finds what it takes;
* `Condition.feed_code`, `Action.feed_code`, `Circuit.feed_code`: a gauge on compiled code;
* **`Source.compile_depth`**: the recorded depths are reached, never passed, and in closed form.
-/

namespace Rung

/-! ## Depths in closed form -/

def largest (ns : List Nat) : Nat := ns.foldr max 0

theorem largest_cons (n : Nat) (ns : List Nat) : largest (n :: ns) = max n (largest ns) := rfl

theorem largest_append (ns ms : List Nat) :
    largest (ns ++ ms) = max (largest ns) (largest ms) := by
  induction ns with
  | nil => exact (Nat.zero_max _).symm
  | cons n ns ih => rw [List.cons_append, largest_cons, ih, largest_cons, Nat.max_assoc]

theorem largest_le {ns : List Nat} {bound : Nat} (h : ∀ n ∈ ns, n ≤ bound) :
    largest ns ≤ bound := by
  induction ns with
  | nil => exact Nat.zero_le bound
  | cons n ns ih =>
    rw [List.forall_mem_cons] at h
    exact Nat.max_le.mpr ⟨h.1, ih h.2⟩

namespace Condition

/-- How deep the primary stack gets while a condition is evaluated. -/
def primaryDepth : Condition → Nat
  | leaf _ => 1
  | junction _ _ _ _ => 2

/-- What a further child adds to the secondary stack: a junction is evaluated above the partial
result that is stashed away for it, a leaf needs no stash. -/
def stashed (nested : Bool) (depth : Nat) : Nat := if nested then 1 + depth else 0

mutual

def secondaryDepth : Condition → Nat
  | leaf _ => 0
  | junction _ first second rest =>
    max first.secondaryDepth
      (max (stashed second.isJunction second.secondaryDepth) (stashedRest rest))

def stashedRest : List Condition → Nat
  | [] => 0
  | c :: cs => max (stashed c.isJunction c.secondaryDepth) (stashedRest cs)

end

end Condition

namespace Circuit

/-- How deep the primary stack gets while a circuit runs. The guard at nesting level `k`, counted
from 1, is evaluated above `k + 1` values: the gate of the circuit and a copy for each level. -/
def primaryDepth (c : Circuit) : Nat :=
  max c.condition.primaryDepth
    (largest (c.actions.flatMap fun a =>
      (a.guards.zipIdx 1).map fun (guard, k) => k + 1 + guard.primaryDepth))

def secondaryDepth (c : Circuit) : Nat :=
  max c.condition.secondaryDepth
    (largest ((c.actions.flatMap Action.guards).map Condition.secondaryDepth))

end Circuit

/-! ## Gauges on single commands -/

theorem Depth.max_max (d : Depth) (p s p' s' : Nat) :
    (d.max ⟨p, s⟩).max ⟨p', s'⟩ = d.max ⟨Max.max p p', Max.max s s'⟩ := by
  simp only [Depth.max, Nat.max_assoc]

namespace Gauge

variable (p s : Nat) (peak : Depth) (u : Bool)

theorem feed_load (operand : Operand) :
    feed ⟨⟨p, s⟩, peak, u⟩ (.load operand) = ⟨⟨p + 1, s⟩, peak.max ⟨p + 1, s⟩, u⟩ := by
  simp [feed, Command.stackUse]

theorem feed_stash :
    feed ⟨⟨p + 1, s⟩, peak, u⟩ .stash = ⟨⟨p, s + 1⟩, peak.max ⟨p, s + 1⟩, u⟩ := by
  simp [feed, Command.stackUse]

theorem feed_joinStash (op : Operator) :
    feed ⟨⟨p + 1, s + 1⟩, peak, u⟩ (.joinStash op) = ⟨⟨p + 1, s⟩, peak.max ⟨p + 1, s⟩, u⟩ := by
  simp [feed, Command.stackUse]

theorem feed_joinTop (op : Operator) :
    feed ⟨⟨p + 2, s⟩, peak, u⟩ (.joinTop op) = ⟨⟨p + 1, s⟩, peak.max ⟨p + 1, s⟩, u⟩ := by
  have hfits : ¬ p + 2 < 2 := by omega
  simp [feed, Command.stackUse, hfits]

theorem feed_duplicate :
    feed ⟨⟨p + 1, s⟩, peak, u⟩ .duplicate = ⟨⟨p + 2, s⟩, peak.max ⟨p + 2, s⟩, u⟩ := by
  simp [feed, Command.stackUse]

theorem feed_apply (effect : Effect) (target : Target) :
    feed ⟨⟨p + 1, s⟩, peak, u⟩ (.apply effect target) =
      ⟨⟨p + 1, s⟩, peak.max ⟨p + 1, s⟩, u⟩ := by
  simp [feed, Command.stackUse]

theorem feed_pop : feed ⟨⟨p + 1, s⟩, peak, u⟩ .pop = ⟨⟨p, s⟩, peak.max ⟨p, s⟩, u⟩ := by
  simp [feed, Command.stackUse]

end Gauge

/-! ## Gauges on compiled code -/

namespace Condition

theorem primaryDepth_le_two (c : Condition) : c.primaryDepth ≤ 2 := by
  cases c with
  | leaf b => exact Nat.le_succ 1
  | junction op first second rest => exact le_rfl

theorem feed_joined {c : Condition} {u : Bool}
    (h : ∀ p s peak, c.code.foldl Gauge.feed ⟨⟨p, s⟩, peak, u⟩ =
      ⟨⟨p + 1, s⟩, peak.max ⟨p + c.primaryDepth, s + c.secondaryDepth⟩, u⟩)
    (op : Operator) (p s : Nat) (peak : Depth) :
    (joined op c.isJunction c.code).foldl Gauge.feed ⟨⟨p + 1, s⟩, peak, u⟩ =
      ⟨⟨p + 1, s⟩, peak.max ⟨p + 2, s + stashed c.isJunction c.secondaryDepth⟩, u⟩ := by
  cases c with
  | leaf b =>
    simp only [joined, isJunction, stashed, Bool.false_eq_true, if_false, List.foldl_append,
      List.foldl_cons, List.foldl_nil, h, Gauge.feed_joinTop, Depth.max_max, primaryDepth,
      secondaryDepth]
    congr 3 <;> omega
  | junction op' first second rest =>
    simp only [joined, isJunction, stashed, if_true, List.foldl_cons, List.foldl_append,
      List.foldl_nil, Gauge.feed_stash, h, Gauge.feed_joinStash, Depth.max_max, primaryDepth]
    congr 3 <;> omega

mutual

/-- **The code of a condition reaches its depths**, above whatever the stacks hold. -/
theorem feed_code (u : Bool) : ∀ (c : Condition) (p s : Nat) (peak : Depth),
    c.code.foldl Gauge.feed ⟨⟨p, s⟩, peak, u⟩ =
      ⟨⟨p + 1, s⟩, peak.max ⟨p + c.primaryDepth, s + c.secondaryDepth⟩, u⟩
  | leaf b, p, s, peak => Gauge.feed_load p s peak u b.operand
  | junction op first second rest, p, s, peak => by
    -- the first child is evaluated on the stacks as they are, at most as deep as the join after it
    have hfirst : max (p + first.primaryDepth) (p + 2) = p + 2 :=
      Nat.max_eq_right (Nat.add_le_add_left first.primaryDepth_le_two p)
    rw [code, List.foldl_append, feed_code u first, List.foldl_append,
      feed_joined (feed_code u second), Depth.max_max, hfirst, Nat.add_max_add_left,
      feed_codeRest u op rest, secondaryDepth, Nat.max_assoc, primaryDepth]

theorem feed_codeRest (u : Bool) (op : Operator) : ∀ (ds : List Condition) (p s k : Nat)
    (peak : Depth),
    (codeRest op ds).foldl Gauge.feed ⟨⟨p + 1, s⟩, peak.max ⟨p + 2, s + k⟩, u⟩ =
      ⟨⟨p + 1, s⟩, peak.max ⟨p + 2, s + max k (stashedRest ds)⟩, u⟩
  | [], p, s, k, peak => by
    rw [codeRest, stashedRest, Nat.max_zero, List.foldl_nil]
  | d :: ds, p, s, k, peak => by
    rw [codeRest, List.foldl_append, feed_joined (feed_code u d), Depth.max_max, Nat.max_self,
      Nat.add_max_add_left, feed_codeRest u op ds, stashedRest, Nat.max_assoc]

end

end Condition

/-- **The code of an action reaches the depths of its guards.** At a nesting level, the gate of the
action stands above one value for each interlock around it. -/
theorem Action.feed_code (u : Bool) (a : Action) (level : Nat) (s : Nat) (peak : Depth) :
    a.code.foldl Gauge.feed ⟨⟨level + 1, s⟩, peak, u⟩ =
      ⟨⟨level + 1, s⟩,
        peak.max ⟨max (level + 1) (largest ((a.guards.zipIdx (level + 1)).map
          fun (guard, k) => k + 1 + guard.primaryDepth)),
          s + largest (a.guards.map Condition.secondaryDepth)⟩, u⟩ := by
  induction a generalizing level peak with
  | drive how target => exact Gauge.feed_apply level s peak u how.effect target.target
  | interlocked guard action ih =>
    rw [code, List.foldl_cons, Gauge.feed_duplicate, List.foldl_append, Condition.feed_code,
      List.foldl_cons, Gauge.feed_joinTop, List.foldl_append, ih, List.foldl_cons,
      List.foldl_nil, Gauge.feed_pop]
    simp only [Depth.max_max, guards, List.zipIdx_cons, List.map_cons, largest_cons]
    congr 3 <;> omega

theorem Action.feed_flatMap_code (u : Bool) (as : List Action) (p s : Nat) (peak : Depth)
    (hp : 1 ≤ p) :
    (as.flatMap code).foldl Gauge.feed ⟨⟨1, 0⟩, peak.max ⟨p, s⟩, u⟩ =
      ⟨⟨1, 0⟩,
        peak.max ⟨max p (largest (as.flatMap fun a =>
          (a.guards.zipIdx 1).map fun (guard, k) => k + 1 + guard.primaryDepth)),
          max s (largest ((as.flatMap guards).map Condition.secondaryDepth))⟩, u⟩ := by
  induction as generalizing p s with
  | nil => simp [largest]
  | cons a as ih =>
    have hgate : ∀ n, max p (max (0 + 1) n) = max p n := by
      intro n
      omega
    rw [List.flatMap_cons, List.foldl_append, feed_code u a 0, Depth.max_max, hgate,
      ih _ _ (by omega)]
    simp only [List.flatMap_cons, List.map_append, largest_append, Nat.max_assoc, Nat.zero_add]

namespace Circuit

/-- **The code of a circuit reaches exactly its depths**, from empty stacks to empty stacks. -/
theorem feed_code (u : Bool) (c : Circuit) (peak : Depth) :
    c.code.foldl Gauge.feed ⟨⟨0, 0⟩, peak, u⟩ =
      ⟨⟨0, 0⟩, peak.max ⟨c.primaryDepth, c.secondaryDepth⟩, u⟩ := by
  have hgate : 1 ≤ 0 + c.condition.primaryDepth := by
    cases c.condition with
    | leaf b | junction op first second rest => simp [Condition.primaryDepth]
  rw [code, List.foldl_append, Condition.feed_code, List.foldl_append,
    Action.feed_flatMap_code u c.actions _ _ peak hgate, List.foldl_cons, List.foldl_nil,
    Gauge.feed_pop, Depth.max_max]
  simp only [primaryDepth, secondaryDepth, Nat.max_zero, Nat.zero_add]

theorem ofCommands_code (c : Circuit) :
    Gauge.ofCommands c.code = { peak := ⟨c.primaryDepth, c.secondaryDepth⟩ } := by
  refine (c.feed_code false {}).trans ?_
  simp [Depth.max]

end Circuit

/-! ## Sequences -/

namespace Sequence

/-- Appending a circuit keeps the recorded depth equal to the peak of all commands. -/
theorem ofCommands_addCircuit {s : Sequence} (h : Gauge.ofCommands s.commands = { peak := s.depth })
    (nc : String × Nat × Circuit) :
    Gauge.ofCommands (s.addCircuit nc).commands = { peak := (s.addCircuit nc).depth } := by
  have hcommands : (s.addCircuit nc).commands = s.commands ++ nc.2.2.code := rfl
  have hdepth : (s.addCircuit nc).depth = s.depth.max (Gauge.ofCommands nc.2.2.code).peak := rfl
  rw [hcommands, hdepth, Gauge.ofCommands, List.foldl_append]
  change nc.2.2.code.foldl Gauge.feed (Gauge.ofCommands s.commands) = _
  rw [h, nc.2.2.feed_code false s.depth, nc.2.2.ofCommands_code]

theorem ofCommands_foldl (circuits : List (String × Nat × Circuit)) :
    Gauge.ofCommands (circuits.foldl addCircuit {}).commands =
      { peak := (circuits.foldl addCircuit {}).depth } :=
  List.foldlRecOn (motive := fun s => Gauge.ofCommands s.commands = { peak := s.depth }) circuits
    addCircuit rfl fun _ h nc _ => ofCommands_addCircuit h nc

theorem depth_foldl (circuits : List (String × Nat × Circuit)) (s : Sequence) :
    (circuits.foldl addCircuit s).depth =
      s.depth.max ⟨largest ((circuits.map (·.2.2)).map Circuit.primaryDepth),
        largest ((circuits.map (·.2.2)).map Circuit.secondaryDepth)⟩ := by
  induction circuits generalizing s with
  | nil => simp [largest, Depth.max]
  | cons nc circuits ih =>
    have hdepth : (s.addCircuit nc).depth =
        s.depth.max ⟨nc.2.2.primaryDepth, nc.2.2.secondaryDepth⟩ := by
      change s.depth.max (Gauge.ofCommands nc.2.2.code).peak = _
      rw [nc.2.2.ofCommands_code]
    rw [List.foldl_cons, ih, hdepth, Depth.max_max]
    simp only [List.map_cons, largest_cons]

end Sequence

/-- Without interlocks a circuit needs at most two primary places. -/
theorem Circuit.primaryDepth_le_two {c : Circuit} (h : ∀ a ∈ c.actions, a.guards = []) :
    c.primaryDepth ≤ 2 := by
  have hguards : (c.actions.flatMap fun a =>
      (a.guards.zipIdx 1).map fun (guard, k) => k + 1 + guard.primaryDepth) = [] := by
    rw [List.flatMap_eq_nil_iff]
    intro a ha
    rw [h a ha]
    rfl
  rw [primaryDepth, hguards]
  exact Nat.max_le.mpr ⟨c.condition.primaryDepth_le_two, Nat.zero_le 2⟩

/-- **The recorded depths are exact and have a closed form.** -/
theorem Source.compile_depth (src : Source) :
    ∃ s, src.compile = .ok s ∧
      (∀ img,
        IsGreatest {n | ∃ before, before <+: s.commands ∧
          (Machine.run { image := img } before).1.primary.length = n} s.depth.primary ∧
        IsGreatest {n | ∃ before, before <+: s.commands ∧
          (Machine.run { image := img } before).1.secondary.length = n} s.depth.secondary) ∧
      s.depth.primary = largest (src.circuits.map Circuit.primaryDepth) ∧
      s.depth.secondary = largest (src.circuits.map Circuit.secondaryDepth) ∧
      ((∀ a ∈ src.actions, a.guards = []) → s.depth.primary ≤ 2) := by
  refine ⟨_, src.compile_eq_foldl, fun img => ?_, ?_⟩
  · have hgauge := Sequence.ofCommands_foldl src.numbered
    have hu := congrArg Gauge.underflow hgauge
    have hpeak := congrArg Gauge.peak hgauge
    dsimp only at hu hpeak
    rw [← hpeak]
    exact ⟨Gauge.isGreatest_peak_run Depth.primary (fun _ _ => rfl) img hu,
      Gauge.isGreatest_peak_run Depth.secondary (fun _ _ => rfl) img hu⟩
  · have hdepth : (src.numbered.foldl Sequence.addCircuit {}).depth =
        ⟨largest (src.circuits.map Circuit.primaryDepth),
          largest (src.circuits.map Circuit.secondaryDepth)⟩ := by
      rw [Sequence.depth_foldl, src.map_numbered]
      simp only [Depth.max, Nat.zero_max]
    rw [hdepth]
    refine ⟨rfl, rfl, fun h => largest_le fun n hn => ?_⟩
    obtain ⟨c, hc, rfl⟩ := List.mem_map.mp hn
    exact Circuit.primaryDepth_le_two fun a ha => h a (List.mem_flatMap.mpr ⟨c, hc, ha⟩)

end Rung
