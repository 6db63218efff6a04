import Rung.Proofs.Blocks
import Rung.Proofs.Turns

/-!
# The last writer of a contact wins

Several actions may drive one contact: coils in different circuits, latches, resets and moves, each
under its own gate. What the contact stores after a run is what the last of their turns wrote that
wrote at all. If none did, the contact stores what it stored before, or still nothing.

* `Turn.writes?`, `Turn.bit?_result`: what one turn writes to its contact, if it writes;
* `foldl_or`: the last of some writes;
* `Turn.Arises`, `Controller.arises_of_mem_turns`: the place of a turn in its run;
* **`Source.follow_contact`**: the contact after a run.
-/

namespace Rung

/-! ## One turn -/

/-- What a turn writes to a contact. An output always writes its gate; the others write only while
the gate is ON, a move whether the value it moves is other than 0. -/
def Turn.writes? (t : Turn) : Option Bool :=
  match t.action.how with
  | .output => some t.gate
  | .set => if t.gate then some true else none
  | .reset => if t.gate then some false else none
  | .write value => if t.gate then some (t.image.readValue value.value != 0) else none

theorem Image.bit?_writePoint_contact (img : Image) (tag : Tag) (state : Bool) :
    (img.writePoint (.contact tag) state).bit? ⟨.contact, tag⟩ = some state := by
  rw [writePoint, bit?_setBit, if_pos rfl]

/-- **A turn on a contact** stores what it writes there, and else leaves what is stored. -/
theorem Turn.bit?_result {t : Turn} {tag : Tag} {inverse : Bool}
    (htarget : t.action.target = .relay tag inverse) :
    t.result.bit? ⟨.contact, tag⟩ = t.writes?.or (t.image.bit? ⟨.contact, tag⟩) := by
  rw [result, htarget, writes?]
  cases t.action.how with
  | output => exact t.image.bit?_writePoint_contact tag t.gate
  | set | reset | write value =>
    -- only a gate that is ON lets these act
    cases t.gate with
    | false => rfl
    | true => exact t.image.bit?_writePoint_contact tag _

theorem Action.target_of_drives_contact {a : Action} {tag : Tag}
    (h : a.drives (.bit ⟨.contact, tag⟩) = true) : ∃ inverse, a.target = .relay tag inverse := by
  have hstored : .bit ⟨.contact, tag⟩ ∈ a.target.storage := of_decide_eq_true h
  cases htarget : a.target with
  | relay tag' inverse =>
    obtain rfl : tag = tag' := by simpa [htarget, Output.storage] using hstored
    exact ⟨inverse, rfl⟩
  | memoryBit b inverse | memory m | timer tag' preset | counter tag' preset =>
    simp [htarget, Output.storage] at hstored

/-- Writes that each replace what was there leave the last of them. -/
theorem foldl_or {α β : Type} (write : α → Option β) (as : List α) (before : Option β) :
    as.foldl (fun stored a => (write a).or stored) before =
      (as.filterMap write).getLast?.or before := by
  induction as using List.reverseRecOn with
  | nil => rfl
  | append_singleton as a ih =>
    rw [List.foldl_append, List.foldl_cons, List.foldl_nil, ih, List.filterMap_append,
      List.getLast?_append, Option.or_assoc]
    cases hwrite : write a <;> simp [hwrite]

/-! ## The place of a turn in its run -/

/-- A turn comes from a run: its gate is the value that the circuit's condition had when the circuit
was reached, together with the interlocks on the image that the turn finds. -/
def Turn.Arises (src : Source) (s : Sequence) (c : Controller) (events : List Event) (t : Turn) :
    Prop :=
  ∃ before after, events = before ++ .scan :: after ∧
  ∃ earlier circuit later, src.circuits = earlier ++ circuit :: later ∧
  ∃ performed pending, circuit.actions = performed ++ t.action :: pending ∧
  ∃ start value, earlier.foldl Circuit.scan (c.follow s before).image = start ∧
    circuit.condition.eval start = value ∧
    performed.foldl (fun img a => a.perform img value) start = t.image ∧
    (value && t.action.permits t.image) = t.gate

theorem Controller.arises_of_mem_turns {src : Source} {s : Sequence} {c : Controller}
    {events : List Event} {t : Turn} (h : t ∈ c.turns src s events) :
    t.Arises src s c events := by
  obtain ⟨before, e, after, hevents, hscan⟩ := exists_of_mem_noted h
  cases e with
  | setInput _ _ | setBit _ _ | setValue _ _ => exact absurd hscan List.not_mem_nil
  | scan =>
    obtain ⟨earlier, circuit, later, hcircuits, hcircuit⟩ := exists_of_mem_noted hscan
    obtain ⟨performed, a, pending, hactions, ha⟩ := exists_of_mem_noted hcircuit
    obtain rfl := List.mem_singleton.mp ha
    exact ⟨before, after, hevents, earlier, circuit, later, hcircuits, performed, pending,
      hactions, _, _, rfl, rfl, rfl, rfl⟩

/-! ## Runs -/

theorem Source.units_ascending (src : Source) : src.units.Pairwise fun a b => a.1 < b.1 := by
  cases src with
  | program p => exact p.unitList_ascending
  | unit u => exact List.pairwise_singleton _ _

/-- **The last writer of a contact wins**, in the order of units, circuits and actions. -/
theorem Source.follow_contact (src : Source) (tag : Tag) (c : Controller) {events : List Event}
    (hevents : ∀ e ∈ events, .bit ⟨.contact, tag⟩ ∉ e.cells) :
    ∃ s turns, src.compile = .ok s ∧
      c.turnsOn (.bit ⟨.contact, tag⟩) src s events = turns ∧
      (c.follow s events).scanCount = c.scanCount + events.count .scan ∧
      src.units.Pairwise (fun a b => a.1 < b.1) ∧
      turns.map Turn.action = events.flatMap (fun e =>
        if e = .scan then src.actions.filter (Action.drives (.bit ⟨.contact, tag⟩)) else []) ∧
      (∀ t ∈ turns, t.Arises src s c events) ∧
      (c.follow s events).image.bit? ⟨.contact, tag⟩ =
        (turns.filterMap Turn.writes?).getLast?.or (c.image.bit? ⟨.contact, tag⟩) := by
  obtain ⟨s, hs, hrun⟩ := src.exists_compile_run
  refine ⟨s, _, hs, rfl, Controller.scanCount_follow hrun events c, src.units_ascending,
    Controller.map_action_turnsOn _ c events, fun t ht => ?_, ?_⟩
  · exact Controller.arises_of_mem_turns (List.mem_filter.mp ht).1
  · have hsame : ∀ img img' : Image, img.SameAt img' (.bit ⟨.contact, tag⟩) →
        img.bit? ⟨.contact, tag⟩ = img'.bit? ⟨.contact, tag⟩ := fun _ _ h => h
    rw [← foldl_or]
    refine Controller.view_follow (fun img => img.bit? ⟨.contact, tag⟩)
      (fun stored t => t.writes?.or stored) hrun (fun t _ hdrives => ?_)
      (fun t _ hdrives => hsame _ _ (Turn.sameAt_result hdrives))
      (fun e he hscan c => hsame _ _ (c.sameAt_react hscan (hevents e he))) c
    obtain ⟨inverse, htarget⟩ := Action.target_of_drives_contact hdrives
    exact Turn.bit?_result htarget

/-- A valve that one input latches open and another closes, the latter only if a recipe was loaded
in the scan before. Loading a recipe opens or closes the valve as the recipe says. -/
def valveUnit : LogicUnit where
  name := "valve"
  circuits :=
    [⟨.leaf (.contact (.input ⟨"X", 0⟩) false), [.set (.relay ⟨"Y", 0⟩ false)]⟩,
      ⟨.leaf (.contact (.input ⟨"X", 1⟩) false),
        [.interlocked (.leaf (.contact (.relay ⟨"M", 0⟩) false)) (.reset (.relay ⟨"Y", 0⟩ true))]⟩,
      ⟨.leaf (.contact (.input ⟨"X", 2⟩) false),
        [.write (.memory ⟨⟨"D", 0⟩, .int16⟩) (.relay ⟨"Y", 0⟩ false),
          .output (.relay ⟨"M", 0⟩ false)]⟩]

/-- All inputs are ON for one scan; then no recipe is loaded, and at last only the closing input is
ON. -/
def valveEvents : List Event :=
  [.setInput ⟨"X", 0⟩ true, .setInput ⟨"X", 1⟩ true, .setInput ⟨"X", 2⟩ true,
    .setValue (.memory ⟨⟨"D", 0⟩, .int16⟩) 5, .scan, .setInput ⟨"X", 2⟩ false, .scan,
    .setInput ⟨"X", 0⟩ false, .scan]

theorem follow_contact_valveUnit :
    (∀ e ∈ valveEvents, .bit ⟨.contact, ⟨"Y", 0⟩⟩ ∉ e.cells) ∧
    ∃ s turns, (Source.unit valveUnit).compile = .ok s ∧
      ({} : Controller).turnsOn (.bit ⟨.contact, ⟨"Y", 0⟩⟩) (.unit valveUnit) s valveEvents =
        turns ∧
      turns.filterMap Turn.writes? = [true, true, true, false] ∧
      (({} : Controller).follow s valveEvents).image.bit? ⟨.contact, ⟨"Y", 0⟩⟩ = some false := by
  have hevents : ∀ e ∈ valveEvents, .bit ⟨.contact, ⟨"Y", 0⟩⟩ ∉ e.cells := by decide
  obtain ⟨s, turns, hs, hturns, -, -, -, -, hstored⟩ :=
    Source.follow_contact (.unit valveUnit) ⟨"Y", 0⟩ {} hevents
  have hwrites : turns.filterMap Turn.writes? = [true, true, true, false] := by
    cases hturns
    cases Except.ok.inj (hs.symm.trans (Source.compile_eq_foldl _))
    decide
  refine ⟨hevents, s, turns, hs, hturns, hwrites, ?_⟩
  rw [hstored, hwrites]
  rfl

end Rung
