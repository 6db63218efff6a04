import Rung.Proofs.Runs

/-!
# What a trap leaves behind

A scan that traps keeps what it has done up to then. How far it comes can be said without the image:
it runs the longest start of its commands that does not underflow. The command after that may take
a value before it underflows, but does not touch the image. Only the image goes on to the next scan,
with the count of the scans that ended well; the stacks do not, so whatever a trapped scan has left
on them is gone.

* `RunsThrough`, `LongestRun`: starts of a list of commands that do not underflow;
* `runsThrough_iff`, `Gauge.FirstShort.longestRun`: the longest one is the same for every image;
* `execute_of_run`, `Gauge.FirstShort.exists_execute`: the two ways a scan can end;
* `Controller.runAll`, `Controller.image_runAll`, `Controller.scanCount_runAll`: scans one after
  another, each of any commands;
* **`trapped_scans`**: what a trap leaves behind.
-/

namespace Rung

/-! ## The longest run -/

/-- Commands that run on an image, from fresh stacks, without an underflow. -/
def RunsThrough (img : Image) (commands : List Command) : Prop :=
  (Machine.run { image := img } commands).2 = none

theorem runsThrough_iff {img : Image} {commands : List Command} :
    RunsThrough img commands ↔ (Gauge.ofCommands commands).underflow = false := by
  constructor
  · intro h
    have hrun : Machine.run { image := img } commands =
        ((Machine.run { image := img } commands).1, none) := Prod.ext rfl h
    exact (Gauge.of_run hrun).1
  · intro h
    obtain ⟨m, hm, -⟩ := Gauge.run_of_not_underflow img h
    unfold RunsThrough
    rw [hm]

/-- The longest start of some commands that runs through. -/
structure LongestRun (img : Image) (commands before : List Command) : Prop where
  isPrefix : before <+: commands
  runsThrough : RunsThrough img before
  longest : ∀ other, other <+: commands → RunsThrough img other → other.length ≤ before.length

theorem RunsThrough.longestRun {img : Image} {commands : List Command}
    (h : RunsThrough img commands) : LongestRun img commands commands where
  isPrefix := List.prefix_rfl
  runsThrough := h
  longest _ hother _ := hother.length_le

/-- The commands before the first one that does not fit are the longest run. -/
theorem Gauge.FirstShort.longestRun {commands before : List Command} {c : Command}
    (h : FirstShort commands before c) (img : Image) : LongestRun img commands before where
  isPrefix := (List.prefix_append before [c]).trans h.isPrefix
  runsThrough := runsThrough_iff.mpr (underflow_eq_false_iff.mpr h.fits_before)
  longest other hother hruns := by
    -- a longer start holds the command that does not fit
    by_contra hlonger
    have hlength : (before ++ [c]).length ≤ other.length := by
      rw [List.length_append, List.length_singleton]
      omega
    have hshort := List.prefix_of_prefix_length_le h.isPrefix hother hlength
    exact h.not_fits (underflow_eq_false_iff.mp (runsThrough_iff.mp hruns) before c hshort)

/-! ## How a scan ends -/

theorem execute_of_run {img : Image} {commands : List Command} {m : Machine}
    (h : Machine.run { image := img } commands = (m, none)) :
    execute commands img =
      (m.image, if m.depth = {} then none else some (.unbalanced m.depth)) := by
  rw [execute, h]
  dsimp only
  split_ifs <;> rfl

/-- The first command that does not fit ends the scan where it stands, whatever follows. -/
theorem Gauge.FirstShort.exists_execute {commands before : List Command} {c : Command}
    (h : FirstShort commands before c) (img : Image) :
    ∃ m m' stack after, Machine.run { image := img } before = (m, none) ∧
      commands = before ++ c :: after ∧ m.step c = (m', some stack) ∧ m'.image = m.image ∧
      ∀ rest, execute (before ++ c :: rest) img = (m.image, some (.underflow stack)) := by
  obtain ⟨m, hm, hd⟩ := run_of_not_underflow img (underflow_eq_false_iff.mpr h.fits_before)
  obtain ⟨after, hafter⟩ := h.isPrefix
  have hc : ¬ c.Fits m.depth := hd ▸ h.not_fits
  obtain ⟨m', hstep, himage⟩ := Machine.step_of_not_fits hc
  refine ⟨m, m', _, after, hm, ?_, hstep, himage, fun rest => ?_⟩
  · rw [← hafter, List.append_assoc, List.singleton_append]
  · have hstop : Machine.run { image := img } (before ++ c :: rest) =
        (m', some (c.shortStack m.depth)) := by
      rw [Machine.run_append_of_run hm, Machine.run, hstep]
    rw [execute, hstop, ← himage]

/-- The image has no say in how a scan ends. -/
theorem execute_snd_congr (commands : List Command) (img img' : Image) :
    (execute commands img).2 = (execute commands img').2 := by
  cases hu : (Gauge.ofCommands commands).underflow with
  | true =>
    obtain ⟨before, c, hshort⟩ := Gauge.exists_firstShort hu
    rw [execute_of_firstShort img hshort, execute_of_firstShort img' hshort]
  | false => rw [execute_of_not_underflow img hu, execute_of_not_underflow img' hu]

/-! ## Controllers -/

namespace Controller

def runAll (c : Controller) (ss : List Sequence) : Controller :=
  ss.foldl (fun c s => (c.run s).1) c

theorem image_runAll (c : Controller) (ss : List Sequence) :
    (c.runAll ss).image = ss.foldl (fun img s => (execute s.commands img).1) c.image := by
  induction ss generalizing c with
  | nil => rfl
  | cons s ss ih =>
    change ((c.run s).1.runAll ss).image = _
    rw [ih, run_eq, List.foldl_cons]

theorem scanCount_runAll (c : Controller) (ss : List Sequence) :
    (c.runAll ss).scanCount =
      c.scanCount + ss.countP fun s => (execute s.commands {}).2 = none := by
  induction ss generalizing c with
  | nil => rfl
  | cons s ss ih =>
    change ((c.run s).1.runAll ss).scanCount = _
    rw [ih, run_eq, List.countP_cons, execute_snd_congr s.commands c.image {}]
    simp only [decide_eq_true_eq]
    omega

end Controller

/-- **What a trap leaves behind**: the image of the longest start that does not underflow. The
command that traps changes nothing in it, and no value on the stacks reaches the next scan. -/
theorem trapped_scans :
    (∀ commands : List Command, ∃ before, (∀ img, LongestRun img commands before) ∧
      ∀ img trap, (execute commands img).2 = some trap →
        ∃ m, Machine.run { image := img } before = (m, none) ∧
          (execute commands img).1 = m.image ∧
          ((before = commands ∧ trap = .unbalanced m.depth) ∨
            ∃ stack c after m', trap = .underflow stack ∧ commands = before ++ c :: after ∧
              m.step c = (m', some stack) ∧ m'.image = m.image ∧
              execute (before ++ [c]) img = (m.image, some trap))) ∧
    (∀ (c : Controller) (s : Sequence),
      (∀ trap, (execute s.commands c.image).2 = some trap →
        c.run s = ({ c with image := (execute s.commands c.image).1 }, some trap)) ∧
      ((execute s.commands c.image).2 = none →
        c.run s = ({ c with image := (execute s.commands c.image).1,
                            scanCount := c.scanCount + 1 }, none))) ∧
    (∀ (c : Controller) (ss : List Sequence), ∃ c', c.runAll ss = c' ∧
      c'.image = ss.foldl (fun img s => (execute s.commands img).1) c.image ∧
      c'.scanCount = c.scanCount + ss.countP (fun s => (execute s.commands {}).2 = none) ∧
      ∀ s, (c'.run s).1.image = (execute s.commands c'.image).1 ∧
        (c'.run s).2 = (execute s.commands c'.image).2) := by
  refine ⟨fun commands => ?_, fun c s => ⟨fun trap htrap => ?_, fun hend => ?_⟩, fun c ss => ?_⟩
  · cases hu : (Gauge.ofCommands commands).underflow with
    | true =>
      obtain ⟨before, c, hshort⟩ := Gauge.exists_firstShort hu
      refine ⟨before, hshort.longestRun, fun img trap htrap => ?_⟩
      obtain ⟨m, m', stack, after, hm, hcommands, hstep, himage, hend⟩ :=
        hshort.exists_execute img
      rw [hcommands, hend] at htrap
      cases htrap
      refine ⟨m, hm, ?_, .inr ⟨stack, c, after, m', rfl, hcommands, hstep, himage, hend []⟩⟩
      rw [hcommands, hend]
    | false =>
      refine ⟨commands, fun img => (runsThrough_iff.mpr hu).longestRun, fun img trap htrap => ?_⟩
      obtain ⟨m, hm, -⟩ := Gauge.run_of_not_underflow img hu
      rw [execute_of_run hm] at htrap ⊢
      dsimp only at htrap
      split_ifs at htrap
      cases htrap
      exact ⟨m, hm, rfl, .inl ⟨rfl, rfl⟩⟩
  · rw [c.run_eq s, htrap]
    rfl
  · rw [c.run_eq s, hend]
    rfl
  · refine ⟨_, rfl, c.image_runAll ss, c.scanCount_runAll ss, fun s => ?_⟩
    rw [Controller.run_eq]
    exact ⟨rfl, rfl⟩

-- the first output is kept, the join finds nothing stashed away, the second output is not reached
example :
    execute
      [.load (.bit (.input ⟨"X", 0⟩) true), .apply .output (.bit (.contact ⟨"Y", 0⟩)),
        .joinStash .and, .apply .output (.bit (.contact ⟨"Y", 1⟩)), .pop] {} =
      (({} : Image).setBit ⟨.contact, ⟨"Y", 0⟩⟩ true, some (.underflow .secondary)) := by
  decide

end Rung
