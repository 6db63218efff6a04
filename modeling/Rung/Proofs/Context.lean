import Rung.Proofs.Bounds

/-!
# The code of a condition in any context

The code of a condition is run in the middle of other code, above partial results that are stashed
away and gates that are copied. It finds its way back to them because it takes no value that it has
not put there itself: what it does on empty stacks, it does on top of any others.

* `Machine.onto`, `Machine.step_onto`, `Machine.run_onto`: runs with further values underneath;
* `Condition.image_run_prefix`: no start of the code changes the image;
* **`Condition.code_keeps_context`**: the code of a condition above any stacks.
-/

namespace Rung

namespace Machine

/-- The machine with further values underneath those on its stacks. -/
def onto (m : Machine) (p s : List Bool) : Machine :=
  { m with primary := m.primary ++ p, secondary := m.secondary ++ s }

theorem step_onto {m m' : Machine} {c : Command} (h : m.step c = (m', none)) (p s : List Bool) :
    (m.onto p s).step c = (m'.onto p s, none) := by
  -- no command looks at more of a stack than the values it takes
  cases moves_of_step h <;> rfl

/-- **A run that does not underflow does the same with further values underneath**, and leaves
them there. -/
theorem run_onto {m m' : Machine} {cs : List Command} (h : m.run cs = (m', none))
    (p s : List Bool) : (m.onto p s).run cs = (m'.onto p s, none) := by
  induction cs generalizing m with
  | nil =>
    cases h
    rfl
  | cons c cs ih =>
    obtain ⟨m₁, hstep, h⟩ := exists_step_of_run h
    rw [run, step_onto hstep p s]
    exact ih h

end Machine

namespace Condition

theorem image_run_prefix {c : Condition} {before : List Command} (h : before <+: c.code)
    (m : Machine) : (m.run before).1.image = m.image := by
  refine Machine.run_induction (P := (· = m.image)) (fun effect target hmem => ?_) rfl
  exact absurd (h.subset hmem) (apply_notMem_code effect target c)

/-- **The code of a condition keeps its context.** It pushes the value and changes nothing else, and
on the way it takes only values that it has put there itself. -/
theorem code_keeps_context (c : Condition) (img : Image) :
    (∀ p s, Machine.run ⟨p, s, img⟩ c.code = (⟨c.eval img :: p, s, img⟩, none)) ∧
    ∀ before, before <+: c.code → ∃ q t,
      (∀ p s, Machine.run ⟨p, s, img⟩ before = (⟨q ++ p, t ++ s, img⟩, none)) ∧
      ∀ next, before ++ [next] <+: c.code →
        next.stackUse.takes.primary ≤ q.length ∧ next.stackUse.takes.secondary ≤ t.length := by
  have hrun : ∀ p s, Machine.run ⟨p, s, img⟩ c.code = (⟨c.eval img :: p, s, img⟩, none) := by
    intro p s
    have hcode := c.run_code img p s []
    rwa [List.append_nil] at hcode
  have hfits := (Gauge.of_run (hrun [] [])).1
  refine ⟨hrun, fun before hbefore => ?_⟩
  obtain ⟨⟨q, t, img'⟩, hm, hdepth⟩ := Gauge.run_prefix_of_not_underflow img hfits hbefore
  obtain rfl : img' = img := by
    have himage := image_run_prefix hbefore { image := img }
    rwa [hm] at himage
  refine ⟨q, t, fun p s => Machine.run_onto hm p s, fun next hnext => ?_⟩
  have hnextFits := Gauge.underflow_eq_false_iff.mp hfits before next hnext
  rwa [← hdepth] at hnextFits

end Condition

end Rung
