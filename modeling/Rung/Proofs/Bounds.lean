import Rung.Proofs.Timers

/-!
# Timers and counters stay within their presets

A timer or counter that is output, latched and reset with one constant preset never leaves the
values from 0 to that preset, whatever else is done between scans and also in the middle of a scan.
Counting itself never leaves the 64-bit range, whatever the commands are.

* `Machine.run_induction`: what every effect of some commands keeps, a run keeps;
* `Source.apply_mem_commands`: the effects in compiled commands are those of the source's actions;
* `Output.tally?`, `Image.Within`, `Image.Within.apply`: one effect on a timer or counter;
* `Image.Counts`, `Image.toInt_word_drive_of_counts`: one step of counting;
* **`counting_within_limits`**: whole runs, and any commands.
-/

namespace Rung

/-! ## What commands keep -/

theorem Machine.image_step {m m' : Machine} {c : Command} (h : m.step c = (m', none)) :
    m'.image = m.image ∨
      ∃ effect target on, c = .apply effect target ∧ m'.image = m.image.apply effect target on := by
  cases moves_of_step h with
  | load | stash | joinStash | joinTop | duplicate | pop => exact .inl rfl
  | apply on _ _ _ effect target => exact .inr ⟨effect, target, on, rfl, rfl⟩

/-- What every effect of some commands keeps, under any gate, a run of them keeps, wherever it
stops. -/
theorem Machine.run_induction {P : Image → Prop} {cs : List Command}
    (h : ∀ effect target, .apply effect target ∈ cs →
      ∀ img on, P img → P (img.apply effect target on))
    {m : Machine} (hm : P m.image) : P (m.run cs).1.image := by
  induction cs generalizing m with
  | nil => exact hm
  | cons c cs ih =>
    rw [run]
    rcases hstep : m.step c with ⟨m', _ | stack⟩
    · refine ih (fun effect target hmem => h effect target (List.mem_cons_of_mem c hmem)) ?_
      rcases image_step hstep with himage | ⟨effect, target, on, rfl, himage⟩
      · rw [himage]
        exact hm
      · rw [himage]
        exact h effect target List.mem_cons_self m.image on hm
    · change P m'.image
      rw [image_of_stop hstep]
      exact hm

theorem execute_fst (commands : List Command) (img : Image) :
    (execute commands img).1 = (Machine.run { image := img } commands).1.image := by
  rw [execute]
  split
  case h_1 hrun => rw [hrun]
  case h_2 hrun =>
    rw [hrun]
    split_ifs <;> rfl

theorem Controller.image_run (c : Controller) (s : Sequence) :
    (c.run s).1.image = (Machine.run { image := c.image } s.commands).1.image := by
  rw [← execute_fst, run_eq]

/-! ## The effects in compiled commands -/

theorem Condition.apply_notMem_code (effect : Effect) (target : Target) (c : Condition) :
    .apply effect target ∉ c.code :=
  fun h => c.evaluates_of_mem_code _ h

theorem Action.apply_mem_code {effect : Effect} {target : Target} {a : Action}
    (h : .apply effect target ∈ a.code) : effect = a.how.effect ∧ target = a.target.target := by
  induction a with
  | drive how o => simpa [code, Action.how, Action.target] using h
  | interlocked guard action ih =>
    have hguard := Condition.apply_notMem_code effect target guard
    have haction : .apply effect target ∈ action.code := by simpa [code, hguard] using h
    exact ih haction

theorem Circuit.apply_mem_code {effect : Effect} {target : Target} {c : Circuit}
    (h : .apply effect target ∈ c.code) :
    ∃ a ∈ c.actions, effect = a.how.effect ∧ target = a.target.target := by
  have hcondition := Condition.apply_notMem_code effect target c.condition
  have hactions : .apply effect target ∈ c.actions.flatMap Action.code := by
    simpa [code, hcondition] using h
  obtain ⟨a, ha, hmem⟩ := List.mem_flatMap.mp hactions
  exact ⟨a, ha, Action.apply_mem_code hmem⟩

namespace Source

theorem commands_eq {src : Source} {s : Sequence} (hs : src.compile = .ok s) :
    s.commands = src.circuits.flatMap Circuit.code := by
  obtain ⟨s', hs', hcommands⟩ := Sequence.exists_addUnits src.units {}
  rw [compile_eq_addUnits, hs'] at hs
  cases hs
  rw [hcommands, circuits, List.flatMap_assoc]
  rfl

/-- **Compiled commands apply nothing but the effects of actions.** -/
theorem apply_mem_commands {src : Source} {s : Sequence} (hs : src.compile = .ok s)
    {effect : Effect} {target : Target} (h : .apply effect target ∈ s.commands) :
    ∃ a ∈ src.actions, effect = a.how.effect ∧ target = a.target.target := by
  rw [commands_eq hs] at h
  obtain ⟨c, hc, hmem⟩ := List.mem_flatMap.mp h
  obtain ⟨a, ha, heffect⟩ := Circuit.apply_mem_code hmem
  exact ⟨a, List.mem_flatMap.mpr ⟨c, hc, ha⟩, heffect⟩

end Source

/-! ## Timers and counters -/

/-- Where a timer or counter keeps its current value, and its preset. -/
def Output.tally? : Output → Option (WordCell × Word)
  | timer tag preset => some (⟨.timer, tag⟩, preset)
  | counter tag preset => some (⟨.counter, tag⟩, preset)
  | relay _ _ | memoryBit _ _ | memory _ => none

namespace Image

def Within (cell : WordCell) (preset : Int64) (img : Image) : Prop :=
  0 ≤ (img.word cell).toInt ∧ (img.word cell).toInt ≤ preset.toInt

variable {img : Image} {cell : WordCell} {preset : Int64}

theorem within_setWord {value : Int64} :
    (img.setWord cell value).Within cell preset ↔
      0 ≤ value.toInt ∧ value.toInt ≤ preset.toInt := by
  rw [Within, word_setWord, if_pos rfl]

theorem Within.of_sameAt {img' : Image} (h : img.Within cell preset)
    (hsame : img'.SameAt img (.word cell)) : img'.Within cell preset := by
  have hword : img'.word cell = img.word cell := hsame.agreeAt
  rw [Within, hword]
  exact h

theorem Within.advance (h : img.Within cell preset) :
    0 ≤ (advance (img.word cell) preset).toInt ∧
      (advance (img.word cell) preset).toInt ≤ preset.toInt := by
  obtain ⟨hlow, hhigh⟩ := h
  rw [toInt_advance]
  split_ifs <;> omega

theorem Within.drive (hpreset : 0 ≤ preset.toInt) (h : img.Within cell preset) {o : Output}
    {name : String} (ho : o.tally? = some (cell, .constant name preset)) (on : Bool) :
    (img.drive o.target on).Within cell preset := by
  cases o with
  | relay _ _ | memoryBit _ _ | memory _ => cases ho
  | timer tag w =>
    cases ho
    cases on with
    | false => exact within_setWord.mpr ⟨le_rfl, hpreset⟩
    | true => exact within_setWord.mpr h.advance
  | counter tag w =>
    cases ho
    refine within_setWord.mpr ?_
    split_ifs
    · exact h.advance
    · exact h

theorem within_latch (hpreset : 0 ≤ preset.toInt) {o : Output} {name : String}
    (ho : o.tally? = some (cell, .constant name preset)) :
    (img.latch o.target).Within cell preset := by
  cases o with
  | relay _ _ | memoryBit _ _ | memory _ => cases ho
  | timer tag w | counter tag w =>
    cases ho
    exact within_setWord.mpr ⟨hpreset, le_rfl⟩

theorem within_store_zero (hpreset : 0 ≤ preset.toInt) {o : Output} {name : String}
    (ho : o.tally? = some (cell, .constant name preset)) :
    (img.store 0 o.target).Within cell preset := by
  cases o with
  | relay _ _ | memoryBit _ _ | memory _ => cases ho
  | timer tag w | counter tag w =>
    cases ho
    exact within_setWord.mpr ⟨le_rfl, hpreset⟩

/-- **An output, a latch or a reset with a constant preset keeps the value within it.** -/
theorem Within.apply (hpreset : 0 ≤ preset.toInt) (h : img.Within cell preset) {how : Drive}
    (hhow : how = .output ∨ how = .set ∨ how = .reset) {o : Output} {name : String}
    (ho : o.tally? = some (cell, .constant name preset)) (on : Bool) :
    (img.apply how.effect o.target on).Within cell preset := by
  rcases hhow with rfl | rfl | rfl
  · exact h.drive hpreset ho on
  · cases on with
    | false => exact h
    | true => exact within_latch hpreset ho
  · cases on with
    | false => exact h
    | true => exact within_store_zero hpreset ho

/-! ## Counting -/

/-- Whether an output under a gate counts the value of a cell: a timer does while the gate is ON, a
counter when the gate is ON and was OFF before, and both do so only below the preset. -/
def Counts (img : Image) (cell : WordCell) (on : Bool) : Target → Prop
  | .timer tag preset =>
    cell = ⟨.timer, tag⟩ ∧ on = true ∧ img.word ⟨.timer, tag⟩ < img.readValue preset
  | .counter tag preset =>
    cell = ⟨.counter, tag⟩ ∧ on = true ∧ img.bit ⟨.coil, tag⟩ = false ∧
      img.word ⟨.counter, tag⟩ < img.readValue preset
  | .bit _ | .memory _ => False

theorem toInt_advance_of_lt {current preset : Int64} (h : current < preset) :
    current.toInt + 1 ≤ Int64.maxValue.toInt ∧
      (advance current preset).toInt = current.toInt + 1 := by
  have hlt := Int64.lt_iff_toInt_lt.mp h
  have hhigh := preset.toInt_le
  refine ⟨by omega, ?_⟩
  rw [toInt_advance, if_pos hlt]

/-- **A value that is counted goes up by one**, within the 64-bit range. -/
theorem toInt_word_drive_of_counts {on : Bool} {t : Target} (h : img.Counts cell on t) :
    (img.word cell).toInt + 1 ≤ Int64.maxValue.toInt ∧
      ((img.drive t on).word cell).toInt = (img.word cell).toInt + 1 := by
  cases t with
  | bit _ | memory _ => exact absurd h id
  | timer tag w =>
    obtain ⟨rfl, rfl, hlt⟩ := h
    rw [Image.drive, word_setWord, if_pos rfl, if_pos rfl]
    exact toInt_advance_of_lt hlt
  | counter tag w =>
    obtain ⟨rfl, rfl, hcoil, hlt⟩ := h
    rw [Image.drive, word_setWord, if_pos rfl, hcoil]
    exact toInt_advance_of_lt hlt

/-- A timer or counter that is not counted keeps its value or is cleared. -/
theorem word_drive_of_not_counts {on : Bool} {t : Target} (harea : cell.area ≠ .memory)
    (h : ¬ img.Counts cell on t) :
    (img.drive t on).word cell = img.word cell ∨ (img.drive t on).word cell = 0 := by
  by_cases hstored : .word cell ∈ t.storage
  · cases t with
    | bit point => cases point <;> simp_all [Target.storage, Point.cell]
    | memory tag => simp_all [Target.storage]
    | timer tag w =>
      obtain rfl : cell = ⟨.timer, tag⟩ := by simpa [Target.storage] using hstored
      rw [Image.drive, word_setWord, if_pos rfl]
      cases on with
      | false => exact .inr rfl
      | true =>
        have hfull : ¬ img.word ⟨.timer, tag⟩ < img.readValue w := fun hlt => h ⟨rfl, rfl, hlt⟩
        rw [if_pos rfl, Image.advance, if_neg hfull]
        exact .inl rfl
    | counter tag w =>
      obtain rfl : cell = ⟨.counter, tag⟩ := by simpa [Target.storage] using hstored
      rw [Image.drive, word_setWord, if_pos rfl]
      split_ifs with hedge
      · have hfull : ¬ img.word ⟨.counter, tag⟩ < img.readValue w := by
          simp only [Bool.and_eq_true, Bool.not_eq_true'] at hedge
          exact fun hlt => h ⟨rfl, hedge.1, hedge.2, hlt⟩
        rw [Image.advance, if_neg hfull]
        exact .inl rfl
      · exact .inl rfl
  · exact .inl (sameAt_drive img on hstored).agreeAt

end Image

/-! ## Runs -/

/-- All actions on a timer or counter output, latch or reset it, with one constant preset. -/
def Source.Tallies (src : Source) (cell : WordCell) (preset : Int64) : Prop :=
  ∀ a ∈ src.actions, a.drives (.word cell) = true →
    (a.how = .output ∨ a.how = .set ∨ a.how = .reset) ∧
      ∃ name, a.target.tally? = some (cell, .constant name preset)

section Tallies

variable {src : Source} {s : Sequence} {cell : WordCell} {preset : Int64}

/-- Every stretch of a scan, from its start on, keeps the value within the preset. -/
theorem Source.Tallies.within_run (h : src.Tallies cell preset) (hpreset : 0 ≤ preset.toInt)
    (hs : src.compile = .ok s) {before : List Command} (hbefore : before <+: s.commands)
    {img : Image} (himg : img.Within cell preset) :
    (Machine.run { image := img } before).1.image.Within cell preset := by
  refine Machine.run_induction (fun effect target hmem img on himg => ?_) himg
  obtain ⟨a, ha, rfl, rfl⟩ := Source.apply_mem_commands hs (hbefore.subset hmem)
  cases hdrives : a.drives (.word cell) with
  | true =>
    obtain ⟨hhow, name, htarget⟩ := h a ha hdrives
    exact himg.apply hpreset hhow htarget on
  | false =>
    have hstored : .word cell ∉ a.target.target.storage := by
      rw [Output.storage_target]
      exact of_decide_eq_false hdrives
    exact himg.of_sameAt (img.sameAt_apply a.how.effect on hstored)

theorem Source.Tallies.within_follow (h : src.Tallies cell preset) (hpreset : 0 ≤ preset.toInt)
    (hs : src.compile = .ok s) {events : List Event} (hevents : ∀ e ∈ events, .word cell ∉ e.cells)
    {c : Controller} (hc : c.image.Within cell preset) :
    (c.follow s events).image.Within cell preset := by
  refine List.foldlRecOn (motive := fun c => c.image.Within cell preset) events
    (Controller.react s) hc fun c hc e he => ?_
  by_cases hscan : e = .scan
  · rw [hscan, Controller.react, Controller.image_run]
    exact h.within_run hpreset hs List.prefix_rfl hc
  · exact hc.of_sameAt (c.sameAt_react hscan (hevents e he))

end Tallies

/-- **Timers and counters stay within their presets**, also in the middle of a scan; and counting
never leaves the 64-bit range, whatever the commands are. -/
theorem counting_within_limits :
    (∀ (src : Source) (cell : WordCell) (preset : Int64), 0 ≤ preset.toInt →
      src.Tallies cell preset →
      ∃ s, src.compile = .ok s ∧
        ∀ events, (∀ e ∈ events, .word cell ∉ e.cells) →
          ∃ c, ({} : Controller).follow s events = c ∧ c.scanCount = events.count .scan ∧
            (0 ≤ (c.image.word cell).toInt ∧ (c.image.word cell).toInt ≤ preset.toInt) ∧
            ∀ before m stop, before <+: s.commands →
              Machine.run { image := c.image } before = (m, stop) →
              0 ≤ (m.image.word cell).toInt ∧ (m.image.word cell).toInt ≤ preset.toInt) ∧
    (∀ (before after : List Command) (t : Target) (img : Image) (m : Machine) (on : Bool)
        (below : List Bool),
      Machine.run { image := img } before = (m, none) → m.primary = on :: below →
      ∃ m' : Machine,
        Machine.run { image := img } (before ++ .apply .output t :: after) = m'.run after ∧
        ∀ cell, (m.image.Counts cell on t →
            (m.image.word cell).toInt + 1 ≤ Int64.maxValue.toInt ∧
              (m'.image.word cell).toInt = (m.image.word cell).toInt + 1) ∧
          (cell.area ≠ .memory → ¬ m.image.Counts cell on t →
            m'.image.word cell = m.image.word cell ∨ m'.image.word cell = 0)) := by
  constructor
  · intro src cell preset hpreset htallies
    obtain ⟨s, hs, hrun⟩ := src.exists_compile_run
    refine ⟨s, hs, fun events hevents => ?_⟩
    have hfresh : ({} : Controller).image.Within cell preset := ⟨le_rfl, hpreset⟩
    have hfollow := htallies.within_follow hpreset hs hevents hfresh
    refine ⟨_, rfl, ?_, hfollow, fun before m stop hbefore hm => ?_⟩
    · exact (Controller.scanCount_follow hrun events {}).trans (Nat.zero_add _)
    · have hwithin := htallies.within_run hpreset hs hbefore hfollow
      rw [hm] at hwithin
      exact hwithin
  · intro before after t img m on below hm htop
    obtain ⟨p, q, img'⟩ := m
    obtain rfl : p = on :: below := htop
    refine ⟨⟨on :: below, q, img'.drive t on⟩, ?_, fun cell => ⟨fun h => ?_, fun harea h => ?_⟩⟩
    · rw [Machine.run_append_of_run hm]
      rfl
    · exact Image.toInt_word_drive_of_counts h
    · exact Image.word_drive_of_not_counts harea h

/-- A dwell time that two circuits drive, one of them only below the limit, and that can be filled
and cleared by hand. -/
def dwellUnit : LogicUnit where
  name := "dwell"
  circuits :=
    [⟨.leaf (.contact (.input ⟨"X", 0⟩) false), [.output (.timer ⟨"T", 0⟩ (.constant "" 2))]⟩,
      ⟨.leaf (.contact (.input ⟨"X", 0⟩) false),
        [.interlocked
          (.leaf (.compare (.timer ⟨"T", 0⟩ (.constant "" 2)) .lt (.constant "" 2)))
          (.output (.timer ⟨"T", 0⟩ (.constant "" 2)))]⟩,
      ⟨.leaf (.contact (.input ⟨"X", 1⟩) false),
        [.set (.timer ⟨"T", 0⟩ (.constant "FULL" 2)), .output (.relay ⟨"M", 0⟩ false)]⟩,
      ⟨.leaf (.contact (.input ⟨"X", 2⟩) false), [.reset (.timer ⟨"T", 0⟩ (.constant "" 2))]⟩]

/-- The dwell time is driven, filled and driven on, while a counter of the same name and address and
a relay are forced. -/
def dwellEvents : List Event :=
  [.setInput ⟨"X", 0⟩ true, .scan, .setInput ⟨"X", 1⟩ true,
    .setValue (.counter ⟨"T", 0⟩ (.constant "" 9)) 7, .scan,
    .setBit (.contact (.relay ⟨"M", 0⟩) true) true, .scan]

theorem tallies_dwellUnit : (Source.unit dwellUnit).Tallies ⟨.timer, ⟨"T", 0⟩⟩ 2 := by
  have hactions : (Source.unit dwellUnit).actions =
      [.output (.timer ⟨"T", 0⟩ (.constant "" 2)),
        .interlocked
          (.leaf (.compare (.timer ⟨"T", 0⟩ (.constant "" 2)) .lt (.constant "" 2)))
          (.output (.timer ⟨"T", 0⟩ (.constant "" 2))),
        .set (.timer ⟨"T", 0⟩ (.constant "FULL" 2)), .output (.relay ⟨"M", 0⟩ false),
        .reset (.timer ⟨"T", 0⟩ (.constant "" 2))] := rfl
  simp only [Source.Tallies, hactions, List.forall_mem_cons]
  exact ⟨fun _ => ⟨.inl rfl, "", rfl⟩, fun _ => ⟨.inl rfl, "", rfl⟩,
    fun _ => ⟨.inr (.inl rfl), "FULL", rfl⟩, fun hdrives => absurd hdrives (by decide),
    fun _ => ⟨.inr (.inr rfl), "", rfl⟩, fun a ha => absurd ha List.not_mem_nil⟩

/-- A timer one step before the last value there is, with its input ON. -/
def almostFull : Image :=
  (({} : Image).setBit ⟨.input, ⟨"X", 0⟩⟩ true).setWord ⟨.timer, ⟨"T", 0⟩⟩ (Int64.maxValue - 1)

theorem counting_within_limits_dwellUnit :
    (Source.unit dwellUnit).Tallies ⟨.timer, ⟨"T", 0⟩⟩ 2 ∧
    (∀ e ∈ dwellEvents, .word ⟨.timer, ⟨"T", 0⟩⟩ ∉ e.cells) ∧
    (∃ s, (Source.unit dwellUnit).compile = .ok s ∧
      ((({} : Controller).follow s dwellEvents).image.word ⟨.timer, ⟨"T", 0⟩⟩).toInt ≤ 2) ∧
    ∃ m, Machine.run { image := almostFull }
        [.load (.bit (.input ⟨"X", 0⟩) false),
          .apply .output (.timer ⟨"T", 0⟩ (.constant Int64.maxValue))] = (m, none) ∧
      m.image.word ⟨.timer, ⟨"T", 0⟩⟩ = Int64.maxValue := by
  have hevents : ∀ e ∈ dwellEvents, .word ⟨.timer, ⟨"T", 0⟩⟩ ∉ e.cells := by decide
  obtain ⟨s, hs, hwithin⟩ :=
    counting_within_limits.1 (.unit dwellUnit) ⟨.timer, ⟨"T", 0⟩⟩ 2 (by decide) tallies_dwellUnit
  obtain ⟨c, rfl, -, hvalue, -⟩ := hwithin dwellEvents hevents
  obtain ⟨m, hm, hcounts⟩ :=
    counting_within_limits.2 [.load (.bit (.input ⟨"X", 0⟩) false)] []
      (.timer ⟨"T", 0⟩ (.constant Int64.maxValue)) almostFull ⟨[true], [], almostFull⟩ true []
      (by decide) rfl
  refine ⟨tallies_dwellUnit, hevents, ⟨s, hs, hvalue.2⟩, m, hm, ?_⟩
  apply Int64.toInt_inj.mp
  rw [((hcounts ⟨.timer, ⟨"T", 0⟩⟩).1 ⟨rfl, rfl, by decide⟩).2]
  decide

end Rung
