import Rung.Proofs.Timers

/-!
# Counters over whole runs

A counter is driven by an output, which counts the gate's changes from OFF to ON up to the preset,
and can be latched to its preset or reset to 0 by other actions. What last drove the output is kept
apart from the value, and only outputs change it: a reset while the gate is held ON does not make
the held gate count once more.

* `Count`, `Count.step`: a counter as it is told by how it is driven, and under which gates;
* `outputGates`, `rises`: the gates of the outputs, and how often they change from OFF to ON;
* `Count.value_foldl`, `Count.held_foldl`: counting while nothing latches or resets;
* **`Source.follow_counter`**: the counter after a run.
-/

namespace Rung

/-! ## Counting -/

/-- A counter: its value, and the gate of the last output that drove it. -/
structure Count where
  value : Int := 0
  held : Bool := false
  deriving DecidableEq, Repr

/-- A counter after it is driven in some way under some gate. An output counts when its gate is ON
and that of the output before was OFF. -/
def Count.step (preset : Int) (n : Count) : Drive × Bool → Count
  | (.output, on) =>
    { value := if on = true ∧ n.held = false ∧ n.value < preset then n.value + 1 else n.value
      held := on }
  | (.set, true) => { n with value := preset }
  | (.reset, true) => { n with value := 0 }
  | (.set, false) | (.reset, false) | (.write _, _) => n

def outputGates (strokes : List (Drive × Bool)) : List Bool :=
  (strokes.filter fun d => d.1 = .output).map Prod.snd

/-- How often a gate changes from OFF to ON, from a state before. -/
def rises (before : Bool) (gates : List Bool) : Nat :=
  ((before :: gates).zip gates).count (false, true)

theorem rises_cons (before on : Bool) (gates : List Bool) :
    rises before (on :: gates) = rises on gates + if !before && on then 1 else 0 := by
  rw [rises, List.zip_cons_cons, List.count_cons, ← rises]
  cases before <;> cases on <;> rfl

theorem outputGates_cons_output (on : Bool) (strokes : List (Drive × Bool)) :
    outputGates ((.output, on) :: strokes) = on :: outputGates strokes := rfl

theorem outputGates_cons_of_ne {d : Drive × Bool} (h : d.1 ≠ .output)
    (strokes : List (Drive × Bool)) : outputGates (d :: strokes) = outputGates strokes := by
  rw [outputGates, List.filter_cons_of_neg (by simpa using h), outputGates]

namespace Count

variable (preset : Int)

theorem step_off (n : Count) {how : Drive} (h : how ≠ .output) :
    n.step preset (how, false) = n := by
  cases how with
  | output => exact absurd rfl h
  | set | reset | write value => rfl

theorem held_foldl (strokes : List (Drive × Bool)) (n : Count) :
    (strokes.foldl (step preset) n).held = (outputGates strokes).getLastD n.held := by
  induction strokes generalizing n with
  | nil => rfl
  | cons d strokes ih =>
    obtain ⟨how, on⟩ := d
    rw [List.foldl_cons, ih]
    cases how with
    | output => rw [outputGates_cons_output, List.getLastD_cons, step]
    | set | reset | write value =>
      rw [outputGates_cons_of_ne (by simp)]
      cases on <;> rfl

/-- While nothing latches or resets, a counter goes on by the rises of its outputs' gate, up to the
preset. -/
theorem value_foldl {strokes : List (Drive × Bool)} (h : ∀ d ∈ strokes, d.1 ≠ .output → d.2 = false)
    (n : Count) :
    (strokes.foldl (step preset) n).value =
      max n.value (min preset (n.value + rises n.held (outputGates strokes))) := by
  induction strokes generalizing n with
  | nil =>
    have hrises : rises n.held (outputGates []) = 0 := rfl
    rw [hrises, List.foldl_nil]
    omega
  | cons d strokes ih =>
    rw [List.forall_mem_cons] at h
    rw [List.foldl_cons, ih h.2]
    obtain ⟨how, on⟩ := d
    by_cases hhow : how = .output
    · subst hhow
      rw [outputGates_cons_output, rises_cons]
      obtain ⟨value, held⟩ := n
      cases on with
      | false => simp [step]
      | true =>
        cases held with
        | true => simp [step]
        | false =>
          simp only [step, true_and, Bool.not_false, Bool.and_self, if_true]
          push_cast
          split_ifs <;> omega
    · obtain rfl : on = false := h.1 hhow
      rw [step_off preset n hhow, outputGates_cons_of_ne hhow]

theorem value_foldl_of_zero {strokes : List (Drive × Bool)}
    (h : ∀ d ∈ strokes, d.1 ≠ .output → d.2 = false) {n : Count} (hn : n.value = 0) :
    (strokes.foldl (step preset) n).value =
      min (max preset 0) (rises n.held (outputGates strokes)) := by
  rw [value_foldl preset h, hn]
  omega

/-- A reset while the gate is held ON starts from 0 with the gate still held. -/
theorem value_foldl_reset {before after : List (Drive × Bool)}
    (hheld : (outputGates before).getLast? = some true)
    (hafter : ∀ d ∈ after, d.1 ≠ .output → d.2 = false) (n : Count) :
    ((before ++ (.reset, true) :: after).foldl (step preset) n).value =
      min (max preset 0) (rises true (outputGates after)) := by
  have hbefore : (before.foldl (step preset) n).held = true := by
    rw [held_foldl, List.getLastD_eq_getLast?, hheld, Option.getD_some]
  rw [List.foldl_append, List.foldl_cons, value_foldl_of_zero preset hafter rfl]
  simp only [step, hbefore]

end Count

/-! ## The counter of an image -/

def Image.count (img : Image) (tag : Tag) : Count where
  value := (img.word ⟨.counter, tag⟩).toInt
  held := img.bit ⟨.coil, tag⟩

namespace Image

variable {img img' : Image} {tag : Tag}

theorem count_congr (hvalue : img.SameAt img' (.word ⟨.counter, tag⟩))
    (hcoil : img.SameAt img' (.bit ⟨.coil, tag⟩)) : img.count tag = img'.count tag :=
  congrArg₂ (fun (w : Int64) held => (⟨w.toInt, held⟩ : Count)) hvalue.agreeAt hcoil.agreeAt

theorem count_setWord (img : Image) (tag : Tag) (value : Int64) :
    (img.setWord ⟨.counter, tag⟩ value).count tag =
      { img.count tag with value := value.toInt } := by
  rw [count, word_setWord, if_pos rfl]
  rfl

theorem count_drive (img : Image) (tag : Tag) (preset : Int64) (on : Bool) :
    (img.drive (.counter tag (.constant preset)) on).count tag =
      (img.count tag).step preset.toInt (.output, on) := by
  have hheld : ((img.setBit ⟨.coil, tag⟩ on).count tag).held = on := by
    rw [count, bit_setBit, if_pos rfl]
  simp only [drive, count_setWord, hheld, Count.step]
  congr 1
  -- the edge is seen against the coil as the image stores it
  cases hedge : on && !img.bit ⟨.coil, tag⟩ with
  | false =>
    have hoff : ¬ (on = true ∧ img.bit ⟨.coil, tag⟩ = false) := by simpa using hedge
    simp [count, hoff, ← and_assoc]
  | true =>
    have hon : on = true ∧ img.bit ⟨.coil, tag⟩ = false := by simpa using hedge
    simp [count, hon, toInt_advance, readValue]

end Image

/-- How a turn drives its target, and under which gate. -/
def Turn.stroke (t : Turn) : Drive × Bool := (t.action.how, t.gate)

theorem length_outputGates_map_stroke (turns : List Turn) :
    (outputGates (turns.map Turn.stroke)).length =
      turns.countP fun t => decide (t.action.how = .output) := by
  rw [outputGates, List.length_map, ← List.countP_eq_length_filter, List.countP_map]
  rfl

theorem Turn.count_result {t : Turn} {tag : Tag} {name : String} {preset : Int64}
    (hhow : t.action.how = .output ∨ t.action.how = .set ∨ t.action.how = .reset)
    (htarget : t.action.target = .counter tag (.constant name preset)) :
    t.result.count tag = (t.image.count tag).step preset.toInt t.stroke := by
  rw [result, stroke, htarget]
  rcases hhow with hhow | hhow | hhow
  · rw [hhow]
    exact t.image.count_drive tag preset t.gate
  · rw [hhow]
    cases t.gate with
    | false => rfl
    | true => exact t.image.count_setWord tag preset
  · rw [hhow]
    cases t.gate with
    | false => rfl
    | true => exact t.image.count_setWord tag 0

/-! ## Runs -/

theorem Action.drives_coil {a : Action} {tag : Tag}
    (h : a.drives (.word ⟨.counter, tag⟩) = false) : a.drives (.bit ⟨.coil, tag⟩) = false := by
  unfold drives at h ⊢
  cases htarget : a.target with
  | counter tag' preset => simpa [htarget, Output.storage] using h
  | relay tag' inverse | memoryBit b inverse | memory m | timer tag' preset =>
    simp [Output.storage]

theorem Event.coil_notMem_cells (e : Event) (tag : Tag) : .bit ⟨.coil, tag⟩ ∉ e.cells := by
  cases e with
  | setInput input state => simp [cells]
  | setBit b state =>
    cases b with
    | contact site inverse => cases site <;> simp [cells, Site.cell]
    | compare left relation right => simp [cells]
  | setValue w value => cases w <;> simp [cells, Word.cells]
  | scan => simp [cells]

/-- A counter that is only output, latched and reset, with one constant preset, is told by the turns
on it. -/
theorem Controller.count_follow {src : Source} {s : Sequence} (hrun : s.Realizes src) {tag : Tag}
    {preset : Int64}
    (hactions : ∀ a ∈ src.actions, a.drives (.word ⟨.counter, tag⟩) = true →
      (a.how = .output ∨ a.how = .set ∨ a.how = .reset) ∧
        ∃ name, a.target = .counter tag (.constant name preset))
    {events : List Event} (hevents : ∀ e ∈ events, .word ⟨.counter, tag⟩ ∉ e.cells)
    (c : Controller) :
    (c.follow s events).image.count tag =
      ((c.turnsOn (.word ⟨.counter, tag⟩) src s events).map Turn.stroke).foldl
        (Count.step preset.toInt) (c.image.count tag) := by
  rw [List.foldl_map]
  refine view_follow (fun img => img.count tag) (fun n t => n.step preset.toInt t.stroke) hrun
    (fun t ht hdrives => ?_) (fun t _ hdrives => ?_) (fun e he hscan c => ?_) c
  · obtain ⟨hhow, name, htarget⟩ := hactions t.action ht hdrives
    exact Turn.count_result hhow htarget
  · exact Image.count_congr (Turn.sameAt_result hdrives)
      (Turn.sameAt_result (Action.drives_coil hdrives))
  · exact Image.count_congr (c.sameAt_react hscan (hevents e he))
      (c.sameAt_react hscan (e.coil_notMem_cells tag))

/-- **An edge-triggered counter over whole runs.** Its value follows the turns on it; without latch
and reset it is the number of the gate's rises, up to the preset. -/
theorem Source.follow_counter (src : Source) {tag : Tag} {preset : Int64}
    (hactions : ∀ a ∈ src.actions, a.drives (.word ⟨.counter, tag⟩) = true →
      (a.how = .output ∨ a.how = .set ∨ a.how = .reset) ∧
        ∃ name, a.target = .counter tag (.constant name preset))
    {events : List Event} (hevents : ∀ e ∈ events, .word ⟨.counter, tag⟩ ∉ e.cells) :
    ∃ s c strokes value, src.compile = .ok s ∧ ({} : Controller).follow s events = c ∧
      (({} : Controller).turnsOn (.word ⟨.counter, tag⟩) src s events).map Turn.stroke = strokes ∧
      c.scanCount = events.count .scan ∧
      (∀ w, (c.readValue (.counter tag w)).toInt = value) ∧
      (strokes.foldl (Count.step preset.toInt) { value := 0, held := false }).value = value ∧
      (src.actions.countP
          (fun a => decide (a.how = .output) && a.drives (.word ⟨.counter, tag⟩)) = 1 →
        (outputGates strokes).length = events.count .scan) ∧
      ((∀ a ∈ src.actions, a.drives (.word ⟨.counter, tag⟩) = true → a.how = .output) →
        value = min (max preset.toInt 0) (rises false (outputGates strokes))) ∧
      ∀ before after, strokes = before ++ (.reset, true) :: after →
        (outputGates before).getLast? = some true →
        (∀ d ∈ after, d.1 ≠ .output → d.2 = false) →
        value = min (max preset.toInt 0) (rises true (outputGates after)) := by
  obtain ⟨s, hs, hrun⟩ := src.exists_compile_run
  have hcount := congrArg Count.value (Controller.count_follow hrun hactions hevents {})
  refine ⟨s, _, _, _, hs, rfl, rfl, ?_, fun w => hcount, rfl, fun hone => ?_, fun honly => ?_,
    fun before after hsplit hheld hafter => ?_⟩
  · exact (Controller.scanCount_follow hrun events {}).trans (Nat.zero_add _)
  · rw [length_outputGates_map_stroke, Controller.turnsOn, List.countP_filter]
    have hturns := @Controller.countP_turns src s
      (fun a => decide (a.how = .output) && a.drives (.word ⟨.counter, tag⟩)) {} events
    rw [hturns, hone, Nat.mul_one]
  · refine Count.value_foldl_of_zero preset.toInt (fun d hd hne => ?_) rfl
    obtain ⟨t, ht, rfl⟩ := List.mem_map.mp hd
    obtain ⟨hmem, hdrives⟩ := Controller.action_mem_of_mem_turnsOn ht
    exact absurd (honly t.action hmem hdrives) hne
  · rw [hsplit]
    exact Count.value_foldl_reset preset.toInt hheld hafter _

/-- A counter of parts that stops at three. It is fed by an input unless a cover is open, and can be
cleared and filled by hand. -/
def feedUnit : LogicUnit where
  name := "feed"
  circuits :=
    [⟨.leaf (.contact (.input ⟨"X", 0⟩) false),
      [.interlocked (.leaf (.contact (.input ⟨"X", 3⟩) true))
        (.output (.counter ⟨"C", 0⟩ (.constant "" 3)))]⟩,
      ⟨.leaf (.contact (.input ⟨"X", 1⟩) false), [.reset (.counter ⟨"C", 0⟩ (.constant "" 3))]⟩,
      ⟨.leaf (.contact (.input ⟨"X", 2⟩) false),
        [.set (.counter ⟨"C", 0⟩ (.constant "FULL" 3))]⟩]

/-- A part is fed and counted, the counter is cleared while the part is still there, and only the
next part counts again. -/
def feedEvents : List Event :=
  [.setInput ⟨"X", 0⟩ true, .scan, .setInput ⟨"X", 1⟩ true, .scan, .setInput ⟨"X", 1⟩ false, .scan,
    .setInput ⟨"X", 0⟩ false, .scan, .setInput ⟨"X", 0⟩ true, .scan]

theorem feedUnit_drives : ∀ a ∈ (Source.unit feedUnit).actions,
    a.drives (.word ⟨.counter, ⟨"C", 0⟩⟩) = true →
      (a.how = .output ∨ a.how = .set ∨ a.how = .reset) ∧
        ∃ name, a.target = .counter ⟨"C", 0⟩ (.constant name 3) := by
  have hactions : (Source.unit feedUnit).actions =
      [.interlocked (.leaf (.contact (.input ⟨"X", 3⟩) true))
        (.output (.counter ⟨"C", 0⟩ (.constant "" 3))),
        .reset (.counter ⟨"C", 0⟩ (.constant "" 3)),
        .set (.counter ⟨"C", 0⟩ (.constant "FULL" 3))] := rfl
  simp only [hactions, List.forall_mem_cons]
  exact ⟨fun _ => ⟨.inl rfl, "", rfl⟩, fun _ => ⟨.inr (.inr rfl), "", rfl⟩,
    fun _ => ⟨.inr (.inl rfl), "FULL", rfl⟩, fun a ha => absurd ha List.not_mem_nil⟩

theorem follow_counter_feedUnit :
    (∀ e ∈ feedEvents, .word ⟨.counter, ⟨"C", 0⟩⟩ ∉ e.cells) ∧
    ∃ s, (Source.unit feedUnit).compile = .ok s ∧
      ((({} : Controller).follow s feedEvents).readValue
        (.counter ⟨"C", 0⟩ (.constant "" 3))).toInt = 1 := by
  have hevents : ∀ e ∈ feedEvents, .word ⟨.counter, ⟨"C", 0⟩⟩ ∉ e.cells := by decide
  obtain ⟨s, c, strokes, value, hs, rfl, rfl, -, hread, hvalue, -⟩ :=
    Source.follow_counter (.unit feedUnit) feedUnit_drives hevents
  refine ⟨hevents, s, hs, (hread _).trans (hvalue.symm.trans ?_)⟩
  cases Except.ok.inj (hs.symm.trans (Source.compile_eq_foldl _))
  decide +kernel

end Rung
