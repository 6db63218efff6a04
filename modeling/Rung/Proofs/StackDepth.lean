import Mathlib.Data.List.Induction
import Mathlib.Order.Bounds.Basic
import Rung.Gauge
import Rung.Scan

/-!
# The gauge foresees the stacks of the machine

A gauge knows a command only by how many values it takes and puts; the machine moves the values.
The two agree on every list of commands, balanced or not: on whether some command underflows, on
the stack it names, and on the depths after every prefix. So how a scan ends is known before it
starts, whatever the image.

* `Machine.run_append`, `Machine.run_append_of_run`: runs of concatenated commands;
* `Command.Fits`, `Machine.Moves`, **`Machine.step_cases`**: all that one command can do;
* `Machine.step_of_fits`, `Machine.step_of_not_fits`, `Machine.moves_of_step`,
  `Machine.image_of_stop`: the same by whether it fits, and by how it ends;
* `Gauge.underflow_eq_false_iff`, `Gauge.FirstShort`, `Gauge.exists_firstShort`;
* `Gauge.run_of_not_underflow`, `Gauge.run_of_firstShort`, `Gauge.of_run`: runs from empty stacks;
* `Gauge.isGreatest_peak`: the peak is the largest depth over all prefixes;
* **`execute_foreseen`**: how every scan ends.
-/

namespace Rung

/-! ## Runs of concatenated commands -/

namespace Machine

theorem run_append (m : Machine) (cs ds : List Command) :
    m.run (cs ++ ds) =
      match m.run cs with
      | (m', none) => m'.run ds
      | (m', some stack) => (m', some stack) := by
  induction cs generalizing m with
  | nil => rfl
  | cons c cs ih =>
    rw [List.cons_append, run, run]
    rcases m.step c with ⟨m', _ | stack⟩
    · exact ih m'
    · rfl

theorem run_append_of_run {m m' : Machine} {cs : List Command} (h : m.run cs = (m', none))
    (ds : List Command) : m.run (cs ++ ds) = m'.run ds := by
  rw [run_append, h]

theorem run_append_of_stop {m m' : Machine} {cs : List Command} {stack : StackName}
    (h : m.run cs = (m', some stack)) (ds : List Command) :
    m.run (cs ++ ds) = (m', some stack) := by
  rw [run_append, h]

theorem exists_step_of_run {m m' : Machine} {c : Command} {cs : List Command}
    (h : m.run (c :: cs) = (m', none)) :
    ∃ m₁, m.step c = (m₁, none) ∧ m₁.run cs = (m', none) := by
  rw [run] at h
  rcases hstep : m.step c with ⟨m₁, _ | stack⟩
  · rw [hstep] at h
    exact ⟨m₁, rfl, h⟩
  · rw [hstep] at h
    cases h

theorem run_singleton (m : Machine) (c : Command) : m.run [c] = m.step c := by
  rw [run]
  rcases m.step c with ⟨m', _ | stack⟩ <;> rfl

end Machine

/-! ## One command -/

namespace Command

def Fits (c : Command) (d : Depth) : Prop :=
  c.stackUse.takes.primary ≤ d.primary ∧ c.stackUse.takes.secondary ≤ d.secondary

instance (c : Command) (d : Depth) : Decidable (c.Fits d) := inferInstanceAs (Decidable (_ ∧ _))

/-- The stack that a command misses values on; the primary one is asked first. -/
def shortStack (c : Command) (d : Depth) : StackName :=
  if d.primary < c.stackUse.takes.primary then .primary else .secondary

def settle (c : Command) (d : Depth) : Depth :=
  ⟨d.primary - c.stackUse.takes.primary + c.stackUse.puts.primary,
    d.secondary - c.stackUse.takes.secondary + c.stackUse.puts.secondary⟩

end Command

namespace Machine

theorem step_load (p s : List Bool) (img : Image) (operand : Operand) :
    step ⟨p, s, img⟩ (.load operand) = (⟨img.evaluate operand :: p, s, img⟩, none) := rfl

theorem step_joinStash (a b : Bool) (p s : List Bool) (img : Image) (op : Operator) :
    step ⟨b :: p, a :: s, img⟩ (.joinStash op) = (⟨op.apply a b :: p, s, img⟩, none) := rfl

theorem step_joinTop (a b : Bool) (p s : List Bool) (img : Image) (op : Operator) :
    step ⟨b :: a :: p, s, img⟩ (.joinTop op) = (⟨op.apply a b :: p, s, img⟩, none) := rfl

/-- What each command does to a machine that holds the values it takes. -/
inductive Moves : Machine → Command → Machine → Prop
  | load (p s : List Bool) (img : Image) (operand : Operand) :
      Moves ⟨p, s, img⟩ (.load operand) ⟨img.evaluate operand :: p, s, img⟩
  | stash (a : Bool) (p s : List Bool) (img : Image) :
      Moves ⟨a :: p, s, img⟩ .stash ⟨p, a :: s, img⟩
  | joinStash (a b : Bool) (p s : List Bool) (img : Image) (op : Operator) :
      Moves ⟨b :: p, a :: s, img⟩ (.joinStash op) ⟨op.apply a b :: p, s, img⟩
  | joinTop (a b : Bool) (p s : List Bool) (img : Image) (op : Operator) :
      Moves ⟨b :: a :: p, s, img⟩ (.joinTop op) ⟨op.apply a b :: p, s, img⟩
  | duplicate (a : Bool) (p s : List Bool) (img : Image) :
      Moves ⟨a :: p, s, img⟩ .duplicate ⟨a :: a :: p, s, img⟩
  | apply (a : Bool) (p s : List Bool) (img : Image) (effect : Effect) (target : Target) :
      Moves ⟨a :: p, s, img⟩ (.apply effect target) ⟨a :: p, s, img.apply effect target a⟩
  | pop (a : Bool) (p s : List Bool) (img : Image) : Moves ⟨a :: p, s, img⟩ .pop ⟨p, s, img⟩

/-- **All that a command can do.** It moves the values that it takes, if the stacks hold them; else
it is stopped at the stack that is too short, with the image as it was. -/
theorem step_cases (m : Machine) (c : Command) :
    (c.Fits m.depth ∧ ∃ m', m.step c = (m', none) ∧ m.Moves c m') ∨
      (¬ c.Fits m.depth ∧
        ∃ m', m.step c = (m', some (c.shortStack m.depth)) ∧ m'.image = m.image) := by
  obtain ⟨p, s, img⟩ := m
  cases c with
  | load operand =>
    exact .inl ⟨⟨Nat.zero_le _, Nat.zero_le _⟩, _, rfl, .load p s img operand⟩
  | stash | duplicate | apply _ _ | pop =>
    cases p with
    | nil => exact .inr ⟨by simp [Command.Fits, Command.stackUse, depth], _, rfl, rfl⟩
    | cons a p =>
      refine .inl ⟨by simp [Command.Fits, Command.stackUse, depth], _, rfl, ?_⟩
      constructor
  | joinStash op =>
    cases p with
    | nil => exact .inr ⟨by simp [Command.Fits, Command.stackUse, depth], _, rfl, rfl⟩
    | cons b p =>
      cases s with
      | nil =>
        -- the value of the primary stack is taken before the secondary one turns out to be empty
        have hshort : (Command.joinStash op).shortStack (depth ⟨b :: p, [], img⟩) = .secondary := by
          simp [Command.shortStack, Command.stackUse, depth]
        rw [hshort]
        exact .inr ⟨by simp [Command.Fits, Command.stackUse, depth], ⟨p, [], img⟩, rfl, rfl⟩
      | cons a s =>
        exact .inl ⟨by simp [Command.Fits, Command.stackUse, depth], _, rfl,
          .joinStash a b p s img op⟩
  | joinTop op =>
    rcases p with _ | ⟨b, _ | ⟨a, p⟩⟩
    · exact .inr ⟨by simp [Command.Fits, Command.stackUse, depth], _, rfl, rfl⟩
    · exact .inr ⟨by simp [Command.Fits, Command.stackUse, depth], _, rfl, rfl⟩
    · exact .inl ⟨by simp [Command.Fits, Command.stackUse, depth], _, rfl, .joinTop a b p s img op⟩

theorem Moves.depth {m m' : Machine} {c : Command} (h : m.Moves c m') :
    m'.depth = c.settle m.depth := by
  cases h <;> rfl

theorem step_of_fits {m : Machine} {c : Command} (h : c.Fits m.depth) :
    ∃ m', m.step c = (m', none) ∧ m'.depth = c.settle m.depth := by
  rcases m.step_cases c with ⟨-, m', hstep, hmoves⟩ | ⟨hnot, -⟩
  · exact ⟨m', hstep, hmoves.depth⟩
  · exact absurd h hnot

theorem step_of_not_fits {m : Machine} {c : Command} (h : ¬ c.Fits m.depth) :
    ∃ m', m.step c = (m', some (c.shortStack m.depth)) ∧ m'.image = m.image := by
  rcases m.step_cases c with ⟨hfits, -⟩ | ⟨-, hstop⟩
  · exact absurd hfits h
  · exact hstop

theorem moves_of_step {m m' : Machine} {c : Command} (h : m.step c = (m', none)) :
    m.Moves c m' := by
  rcases m.step_cases c with ⟨-, m₁, hstep, hmoves⟩ | ⟨-, m₁, hstep, -⟩
  · rw [h] at hstep
    cases hstep
    exact hmoves
  · rw [h] at hstep
    cases hstep

theorem image_of_stop {m m' : Machine} {c : Command} {stack : StackName}
    (h : m.step c = (m', some stack)) : m'.image = m.image := by
  rcases m.step_cases c with ⟨-, m₁, hstep, -⟩ | ⟨-, m₁, hstep, himage⟩
  · rw [h] at hstep
    cases hstep
  · rw [h] at hstep
    cases hstep
    exact himage

-- the value joined is gone from the primary stack
example (img : Image) :
    step ⟨[true], [], img⟩ (.joinStash .and) = (⟨[], [], img⟩, some .secondary) := rfl

end Machine

/-! ## Gauges along a list of commands -/

namespace Gauge

theorem depth_feed (g : Gauge) (c : Command) : (g.feed c).depth = c.settle g.depth := rfl

theorem peak_feed (g : Gauge) (c : Command) : (g.feed c).peak = g.peak.max (g.feed c).depth := rfl

theorem underflow_feed_eq_false_iff {g : Gauge} {c : Command} :
    (g.feed c).underflow = false ↔ g.underflow = false ∧ c.Fits g.depth := by
  simp [feed, Command.Fits, and_assoc]

theorem ofCommands_concat (cs : List Command) (c : Command) :
    ofCommands (cs ++ [c]) = (ofCommands cs).feed c := by
  simp [ofCommands]

/-- The gauge notices no underflow exactly when every command fits where it stands. -/
theorem underflow_eq_false_iff {cs : List Command} :
    (ofCommands cs).underflow = false ↔
      ∀ before c, before ++ [c] <+: cs → c.Fits (ofCommands before).depth := by
  induction cs using List.reverseRecOn with
  | nil =>
    refine iff_of_true rfl fun before c h => ?_
    simp at h
  | append_singleton cs d ih =>
    rw [ofCommands_concat, underflow_feed_eq_false_iff, ih]
    constructor
    · rintro ⟨hcs, hd⟩ before c h
      rcases List.prefix_concat_iff.mp h with he | h
      · obtain ⟨rfl, hc⟩ := List.append_inj' he rfl
        cases hc
        exact hd
      · exact hcs before c h
    · intro h
      exact ⟨fun before c hb => h before c (hb.trans (List.prefix_append cs [d])),
        h cs d List.prefix_rfl⟩

/-- The command `c` that follows `before` is the first one that does not fit. -/
structure FirstShort (commands before : List Command) (c : Command) : Prop where
  isPrefix : before ++ [c] <+: commands
  fits_before : ∀ b d, b ++ [d] <+: before → d.Fits (ofCommands b).depth
  not_fits : ¬ c.Fits (ofCommands before).depth

theorem exists_firstShort {cs : List Command} (h : (ofCommands cs).underflow = true) :
    ∃ before c, FirstShort cs before c := by
  induction cs using List.reverseRecOn with
  | nil => cases h
  | append_singleton cs d ih =>
    cases hcs : (ofCommands cs).underflow with
    | true =>
      obtain ⟨before, c, hf⟩ := ih hcs
      exact ⟨before, c, hf.isPrefix.trans (List.prefix_append cs [d]), hf.fits_before, hf.not_fits⟩
    | false =>
      refine ⟨cs, d, List.prefix_rfl, underflow_eq_false_iff.mp hcs, fun hd => ?_⟩
      have hfeed := underflow_feed_eq_false_iff.mpr ⟨hcs, hd⟩
      rw [← ofCommands_concat, h] at hfeed
      cases hfeed

/-! ## Runs from empty stacks -/

/-- While the gauge notices no underflow the machine runs on, at the depths of the gauge. -/
theorem run_of_not_underflow (img : Image) {cs : List Command}
    (h : (ofCommands cs).underflow = false) :
    ∃ m, Machine.run { image := img } cs = (m, none) ∧ m.depth = (ofCommands cs).depth := by
  induction cs using List.reverseRecOn with
  | nil => exact ⟨_, rfl, rfl⟩
  | append_singleton cs c ih =>
    rw [ofCommands_concat, underflow_feed_eq_false_iff] at h
    obtain ⟨hcs, hc⟩ := h
    obtain ⟨m, hm, hd⟩ := ih hcs
    rw [← hd] at hc
    obtain ⟨m', hm', hd'⟩ := Machine.step_of_fits hc
    refine ⟨m', ?_, ?_⟩
    · rw [Machine.run_append_of_run hm, Machine.run_singleton, hm']
    · rw [hd', hd, ofCommands_concat, depth_feed]

theorem run_of_firstShort (img : Image) {cs before : List Command} {c : Command}
    (h : FirstShort cs before c) :
    ∃ m, Machine.run { image := img } cs =
      (m, some (c.shortStack (ofCommands before).depth)) := by
  obtain ⟨after, rfl⟩ := h.isPrefix
  obtain ⟨m, hm, hd⟩ := run_of_not_underflow img (underflow_eq_false_iff.mpr h.fits_before)
  have hc : ¬ c.Fits m.depth := hd ▸ h.not_fits
  obtain ⟨m', hstep, -⟩ := Machine.step_of_not_fits hc
  have hstop : Machine.run { image := img } (before ++ [c]) = (m', some (c.shortStack m.depth)) := by
    rw [Machine.run_append_of_run hm, Machine.run_singleton, hstep]
  exact ⟨m', by rw [Machine.run_append_of_stop hstop, hd]⟩

theorem of_run {img : Image} {cs : List Command} {m : Machine}
    (h : Machine.run { image := img } cs = (m, none)) :
    (ofCommands cs).underflow = false ∧ (ofCommands cs).depth = m.depth := by
  cases hu : (ofCommands cs).underflow with
  | true =>
    obtain ⟨before, c, hf⟩ := exists_firstShort hu
    obtain ⟨m', hm'⟩ := run_of_firstShort img hf
    rw [h] at hm'
    cases hm'
  | false =>
    obtain ⟨m', hm', hd⟩ := run_of_not_underflow img hu
    rw [h] at hm'
    cases hm'
    exact ⟨rfl, hd.symm⟩

/-! ## The peak -/

/-- One stack's peak is its largest depth over all prefixes. The stack is given by a projection
that respects the larger of two depths. -/
theorem isGreatest_peak (f : Depth → Nat) (hf : ∀ d e, f (d.max e) = max (f d) (f e))
    (cs : List Command) :
    IsGreatest {n | ∃ before, before <+: cs ∧ f (ofCommands before).depth = n}
      (f (ofCommands cs).peak) := by
  induction cs using List.reverseRecOn with
  | nil =>
    refine ⟨⟨[], List.prefix_rfl, rfl⟩, ?_⟩
    rintro n ⟨before, hb, rfl⟩
    rw [List.prefix_nil.mp hb]
    exact le_rfl
  | append_singleton cs c ih =>
    have hset : {n | ∃ before, before <+: cs ++ [c] ∧ f (ofCommands before).depth = n} =
        insert (f (ofCommands (cs ++ [c])).depth)
          {n | ∃ before, before <+: cs ∧ f (ofCommands before).depth = n} := by
      ext n
      simp only [List.prefix_concat_iff, or_and_right, exists_or, exists_eq_left,
        Set.mem_ofPred_eq, Set.mem_insert_iff, eq_comm (a := n)]
    rw [hset, ofCommands_concat, peak_feed, hf, max_comm]
    exact ih.insert _

end Gauge

/-! ## How a scan ends -/

theorem execute_of_firstShort (img : Image) {commands before : List Command} {c : Command}
    (h : Gauge.FirstShort commands before c) :
    (execute commands img).2 =
      some (.underflow (c.shortStack (Gauge.ofCommands before).depth)) := by
  obtain ⟨m, hm⟩ := Gauge.run_of_firstShort img h
  rw [execute, hm]

theorem execute_of_not_underflow (img : Image) {commands : List Command}
    (h : (Gauge.ofCommands commands).underflow = false) :
    (execute commands img).2 =
      if (Gauge.ofCommands commands).depth = {} then none
      else some (.unbalanced (Gauge.ofCommands commands).depth) := by
  obtain ⟨m, hm, hd⟩ := Gauge.run_of_not_underflow img h
  rw [execute, hm, ← hd]
  dsimp only
  split_ifs <;> rfl

theorem Gauge.run_prefix_of_not_underflow (img : Image) {commands before : List Command}
    (h : (ofCommands commands).underflow = false) (hb : before <+: commands) :
    ∃ m, Machine.run { image := img } before = (m, none) ∧
      m.depth = (ofCommands before).depth := by
  refine run_of_not_underflow img (underflow_eq_false_iff.mpr fun b c hc => ?_)
  exact underflow_eq_false_iff.mp h b c (hc.trans hb)

theorem Gauge.isGreatest_peak_run (f : Depth → Nat)
    (hf : ∀ d e, f (d.max e) = max (f d) (f e)) (img : Image) {commands : List Command}
    (h : (ofCommands commands).underflow = false) :
    IsGreatest {n | ∃ before, before <+: commands ∧
      f (Machine.run { image := img } before).1.depth = n} (f (ofCommands commands).peak) := by
  convert isGreatest_peak f hf commands using 5 with n before
  refine and_congr_right fun hb => ?_
  obtain ⟨m, hm, hd⟩ := run_prefix_of_not_underflow img h hb
  rw [hm, hd]

/-- **The gauge foresees how every scan ends**, whatever the image. -/
theorem execute_foreseen (commands : List Command) (img : Image) :
    ((∃ stack, (execute commands img).2 = some (.underflow stack)) ↔
      (Gauge.ofCommands commands).underflow = true) ∧
    ((Gauge.ofCommands commands).underflow = true →
      ∃ before c, Gauge.FirstShort commands before c ∧
        (execute commands img).2 = some (.underflow
          (if (Gauge.ofCommands before).depth.primary < c.stackUse.takes.primary
            then .primary else .secondary))) ∧
    ((Gauge.ofCommands commands).underflow = false →
      (∀ before, before <+: commands →
        ∃ m, Machine.run { image := img } before = (m, none) ∧
          m.depth = (Gauge.ofCommands before).depth) ∧
      IsGreatest {n | ∃ before, before <+: commands ∧
        (Machine.run { image := img } before).1.primary.length = n}
        (Gauge.ofCommands commands).peak.primary ∧
      IsGreatest {n | ∃ before, before <+: commands ∧
        (Machine.run { image := img } before).1.secondary.length = n}
        (Gauge.ofCommands commands).peak.secondary ∧
      ((execute commands img).2 = none ↔ (Gauge.ofCommands commands).depth = ⟨0, 0⟩) ∧
      ((Gauge.ofCommands commands).depth ≠ ⟨0, 0⟩ →
        (execute commands img).2 = some (.unbalanced (Gauge.ofCommands commands).depth))) ∧
    ∀ img', (execute commands img').2 = (execute commands img).2 := by
  cases hu : (Gauge.ofCommands commands).underflow with
  | true =>
    obtain ⟨before, c, hf⟩ := Gauge.exists_firstShort hu
    refine ⟨iff_of_true ⟨_, execute_of_firstShort img hf⟩ rfl,
      fun _ => ⟨before, c, hf, execute_of_firstShort img hf⟩, nofun, fun img' => ?_⟩
    rw [execute_of_firstShort img hf, execute_of_firstShort img' hf]
  | false =>
    have hend := execute_of_not_underflow img hu
    refine ⟨iff_of_false ?_ nofun, nofun, fun _ => ⟨fun before hb => ?_, ?_, ?_, ?_, ?_⟩, ?_⟩
    · rintro ⟨stack, hs⟩
      rw [hend] at hs
      split_ifs at hs
      cases hs
    · exact Gauge.run_prefix_of_not_underflow img hu hb
    · exact Gauge.isGreatest_peak_run Depth.primary (fun _ _ => rfl) img hu
    · exact Gauge.isGreatest_peak_run Depth.secondary (fun _ _ => rfl) img hu
    · rw [hend]
      split_ifs with hd <;> simp [hd]
    · intro hd
      rw [hend, if_neg hd]
    · intro img'
      rw [hend, execute_of_not_underflow img' hu]

end Rung
