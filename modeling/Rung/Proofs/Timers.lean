import Mathlib.Data.List.DropRight
import Rung.Proofs.Blocks
import Rung.Proofs.Turns

/-!
# Timers over whole runs

An on-delay timer is driven by an output: it counts the scans in which its gate is ON, up to its
preset, and is cleared by every scan in which the gate is OFF. After any run its value is a function
of the gate's history alone.

* `Image.toInt_advance`: counting never leaves the 64-bit range;
* `heldFor`, `timed`, `foldl_timed`: the value of a timer as a function of its gate's history;
* **`Source.follow_timer`**: the timer after a run.
-/

namespace Rung

namespace Image

/-- **A step towards a preset is a step of integers**: it never leaves the 64-bit range, since the
value it starts from is below the preset. -/
theorem toInt_advance (current preset : Int64) :
    (advance current preset).toInt =
      if current.toInt < preset.toInt then current.toInt + 1 else current.toInt := by
  simp only [advance, Int64.lt_iff_toInt_lt]
  split_ifs with h
  · have hlow := current.le_toInt
    have hhigh := preset.toInt_lt
    rw [Int64.toInt_add, Int64.toInt_one]
    exact Int.bmod_eq_of_le (by omega) (by omega)
  · rfl

end Image

/-! ## The value of a timer -/

/-- A timer's value after it is driven: it counts while the gate is ON, up to the preset, and is
cleared when the gate is OFF. -/
def timed (preset : Int) (current : Int) (gate : Bool) : Int :=
  if gate then (if current < preset then current + 1 else current) else 0

/-- For how many of the most recent entries a gate was ON, without a break. -/
def heldFor (gates : List Bool) : Nat := (gates.rtakeWhile id).length

theorem heldFor_concat (gates : List Bool) (on : Bool) :
    heldFor (gates ++ [on]) = if on then heldFor gates + 1 else 0 := by
  rw [heldFor, List.rtakeWhile_concat]
  cases on <;> simp [heldFor]

/-- From 0 on, a timer shows for how long its gate has been ON, up to the preset. -/
theorem foldl_timed (preset : Int) (gates : List Bool) :
    gates.foldl (timed preset) 0 = min (max preset 0) (heldFor gates) := by
  induction gates using List.reverseRecOn with
  | nil => simp [heldFor]
  | append_singleton gates on ih =>
    rw [List.foldl_append, List.foldl_cons, List.foldl_nil, ih, heldFor_concat, timed]
    cases on with
    | false => simp
    | true =>
      simp only [if_true]
      push_cast
      split_ifs <;> omega

theorem Turn.toInt_word_timer {t : Turn} {tag : Tag} {name : String} {preset : Int64}
    (hhow : t.action.how = .output)
    (htarget : t.action.target = .timer tag (.constant name preset)) :
    (t.result.word ⟨.timer, tag⟩).toInt =
      timed preset.toInt (t.image.word ⟨.timer, tag⟩).toInt t.gate := by
  rw [result, hhow, htarget]
  change ((t.image.setWord ⟨.timer, tag⟩ _).word ⟨.timer, tag⟩).toInt = _
  rw [Image.word_setWord, if_pos rfl, timed]
  cases t.gate with
  | false => rfl
  | true => exact Image.toInt_advance _ preset

theorem Controller.toInt_word_follow_timer {src : Source} {s : Sequence}
    (hrun : s.Realizes src) {tag : Tag} {preset : Int64}
    (hactions : ∀ a ∈ src.actions, a.drives (.word ⟨.timer, tag⟩) = true →
      a.how = .output ∧ ∃ name, a.target = .timer tag (.constant name preset))
    {events : List Event} (hevents : ∀ e ∈ events, .word ⟨.timer, tag⟩ ∉ e.cells)
    (c : Controller) :
    ((c.follow s events).image.word ⟨.timer, tag⟩).toInt =
      ((c.turnsOn (.word ⟨.timer, tag⟩) src s events).map Turn.gate).foldl (timed preset.toInt)
        (c.image.word ⟨.timer, tag⟩).toInt := by
  have hsame : ∀ img img' : Image, img.SameAt img' (.word ⟨.timer, tag⟩) →
      (img.word ⟨.timer, tag⟩).toInt = (img'.word ⟨.timer, tag⟩).toInt :=
    fun _ _ h => congrArg Int64.toInt h.agreeAt
  rw [List.foldl_map]
  refine view_follow (fun img => (img.word ⟨.timer, tag⟩).toInt)
    (fun v t => timed preset.toInt v t.gate) hrun (fun t ht hdrives => ?_)
    (fun t _ hdrives => hsame _ _ (Turn.sameAt_result hdrives))
    (fun e he hscan c => hsame _ _ (c.sameAt_react hscan (hevents e he))) c
  obtain ⟨hhow, name, htarget⟩ := hactions t.action ht hdrives
  exact Turn.toInt_word_timer hhow htarget

theorem Controller.readBit_contact_timer (c : Controller) (tag : Tag) (name : String)
    (preset : Int64) :
    c.readBit (.compare (.timer tag (.constant name preset)) .ge (.constant name preset)) = true ↔
      preset.toInt ≤ (c.image.word ⟨.timer, tag⟩).toInt := by
  rw [← Int64.le_iff_toInt_le]
  exact decide_eq_true_iff

/-- **An on-delay timer over whole runs** shows in how many of the latest scans, without a break,
its gate was ON, up to the preset. -/
theorem Source.follow_timer (src : Source) {tag : Tag} {name : String} {preset : Int64}
    {a : Action} (honly : src.actions.filter (Action.drives (.word ⟨.timer, tag⟩)) = [a])
    (hhow : a.how = .output) (htarget : a.target = .timer tag (.constant name preset))
    {events : List Event} (hevents : ∀ e ∈ events, .word ⟨.timer, tag⟩ ∉ e.cells) :
    ∃ s c turns, src.compile = .ok s ∧ ({} : Controller).follow s events = c ∧
      ({} : Controller).turnsOn (.word ⟨.timer, tag⟩) src s events = turns ∧
      c.scanCount = events.count .scan ∧
      (∀ t ∈ turns, t.action = a) ∧ turns.length = events.count .scan ∧
      (c.readValue (.timer tag (.constant name preset))).toInt =
        min (max preset.toInt 0) (heldFor (turns.map Turn.gate)) ∧
      (∃ contact, (Word.timer tag (.constant name preset)).contact? = some contact ∧
        (0 ≤ preset.toInt →
          (c.readBit contact = true ↔ preset.toInt ≤ heldFor (turns.map Turn.gate)))) ∧
      ∀ t ∈ turns, t.gate = true → t.image.word ⟨.timer, tag⟩ < preset →
        (t.result.word ⟨.timer, tag⟩).toInt = (t.image.word ⟨.timer, tag⟩).toInt + 1 := by
  obtain ⟨s, hs, hrun⟩ := src.exists_compile_run
  have honlyOne : ∀ b ∈ src.actions, b.drives (.word ⟨.timer, tag⟩) = true → b = a := by
    intro b hb hdrives
    have hmem := List.mem_filter.mpr ⟨hb, hdrives⟩
    rw [honly] at hmem
    exact List.mem_singleton.mp hmem
  have hturns : ∀ t ∈ ({} : Controller).turnsOn (.word ⟨.timer, tag⟩) src s events,
      t.action = a := by
    intro t ht
    obtain ⟨hmem, hdrives⟩ := Controller.action_mem_of_mem_turnsOn ht
    exact honlyOne t.action hmem hdrives
  have hvalue := Controller.toInt_word_follow_timer hrun (fun b hb hdrives => by
    rw [honlyOne b hb hdrives]
    exact ⟨hhow, name, htarget⟩) hevents {}
  refine ⟨s, _, _, hs, rfl, rfl, ?_, hturns, ?_, ?_, ⟨_, rfl, fun hpos => ?_⟩,
    fun t ht hgate hbelow => ?_⟩
  · exact (Controller.scanCount_follow hrun events {}).trans (Nat.zero_add _)
  · rw [Controller.turnsOn, ← List.countP_eq_length_filter, Controller.countP_turns,
      List.countP_eq_length_filter, honly]
    exact Nat.mul_one _
  · exact hvalue.trans (foldl_timed preset.toInt _)
  · have hmin := hvalue.trans (foldl_timed preset.toInt _)
    rw [Controller.readBit_contact_timer, hmin]
    omega
  · rw [Turn.toInt_word_timer (hturns t ht ▸ hhow) (hturns t ht ▸ htarget), timed, hgate,
      if_pos rfl, if_pos (Int64.lt_iff_toInt_lt.mp hbelow)]

def pumpDelay : Action :=
  .interlocked (.leaf (.contact (.input ⟨"X", 1⟩) true))
    (.interlocked (.leaf (.contact (.relay ⟨"M", 0⟩) false))
      (.output (.timer ⟨"T", 0⟩ (.constant "" 2))))

/-- A pump that is switched on by an input, and reports once it has run for two scans. -/
def pumpUnit : LogicUnit where
  name := "pump"
  circuits :=
    [⟨.leaf (.contact (.input ⟨"X", 0⟩) false), [.output (.relay ⟨"M", 0⟩ false), pumpDelay]⟩,
      ⟨.leaf (.compare (.timer ⟨"T", 0⟩ (.constant "" 2)) .ge (.constant "" 2)),
        [.output (.relay ⟨"Y", 0⟩ false)]⟩]

/-- The pump is switched on, the door is opened for one scan, and the pump is forced off before a
scan that finds it switched on. -/
def pumpEvents : List Event :=
  [.setInput ⟨"X", 0⟩ true, .scan, .setInput ⟨"X", 1⟩ true, .scan, .setInput ⟨"X", 1⟩ false,
    .setBit (.contact (.relay ⟨"M", 0⟩) true) true, .scan, .scan, .scan]

theorem follow_timer_pumpUnit :
    (Source.unit pumpUnit).actions.filter (Action.drives (.word ⟨.timer, ⟨"T", 0⟩⟩)) =
      [pumpDelay] ∧
    (∀ e ∈ pumpEvents, .word ⟨.timer, ⟨"T", 0⟩⟩ ∉ e.cells) ∧
    ∃ s, (Source.unit pumpUnit).compile = .ok s ∧
      ((({} : Controller).follow s pumpEvents).readValue
        (.timer ⟨"T", 0⟩ (.constant "" 2))).toInt = 2 := by
  have honly : (Source.unit pumpUnit).actions.filter (Action.drives (.word ⟨.timer, ⟨"T", 0⟩⟩)) =
      [pumpDelay] := by decide
  have hevents : ∀ e ∈ pumpEvents, .word ⟨.timer, ⟨"T", 0⟩⟩ ∉ e.cells := by decide
  obtain ⟨s, c, turns, hs, rfl, rfl, -, -, -, hvalue, -⟩ :=
    Source.follow_timer (.unit pumpUnit) honly rfl rfl hevents
  refine ⟨honly, hevents, s, hs, hvalue.trans ?_⟩
  cases Except.ok.inj (hs.symm.trans (Source.compile_eq_foldl _))
  decide

end Rung
