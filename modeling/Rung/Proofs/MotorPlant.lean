import Rung.CommandLine.Transcript
import Rung.Proofs.Meaning
import Rung.Proofs.Timers

/-!
# The motor plant over whole histories

The three circuits of the plant act on each other within a scan and from scan to scan: the latch
holds itself, the timer counts while the latch is ON, and the lamp compares the timer. After any
history of the two push buttons the devices show what the history says and nothing else.

* `Buttons`, `runStates`, `running`: the latch as a function of the history;
* `replicate_suffix_iff`: the last scans of a history;
* `Plant.settle`, `Plant.foldl_scan_circuits`: what one scan does, in closed form;
* `Plant.Shows`, `Plant.Shows.scan`: what the devices show, and how a scan moves it on;
* `Plant.shows_follow`: a history of any length;
* `CommandLine.Demo.exists_hold`, `CommandLine.Demo.scanUpTo_eq_follow`: the demonstration;
* **`Plant.follows_ladder`**: the plant that is built, and its demonstration.
-/

namespace Rung

/-! ## Histories -/

structure Buttons where
  start : Bool
  stop : Bool
  deriving DecidableEq, Repr

/-- Whether the plant runs after a scan: it was started or ran before, and is not stopped. -/
def Buttons.next (run : Bool) (b : Buttons) : Bool := (b.start || run) && !b.stop

/-- Whether the plant runs after each scan of a history. -/
def runStates (run : Bool) : List Buttons → List Bool
  | [] => []
  | b :: history => b.next run :: runStates (b.next run) history

def running (history : List Buttons) : Bool := (runStates false history).getLastD false

theorem runStates_concat (run : Bool) (history : List Buttons) (b : Buttons) :
    runStates run (history ++ [b]) =
      runStates run history ++ [b.next ((runStates run history).getLastD run)] := by
  induction history generalizing run with
  | nil => rfl
  | cons a history ih =>
    rw [List.cons_append, runStates, ih, runStates, List.cons_append, List.getLastD_cons]

theorem running_concat (history : List Buttons) (b : Buttons) :
    running (history ++ [b]) = b.next (running history) := by
  rw [running, runStates_concat, List.getLastD_concat, running]

/-- The last entries are all ON exactly when the gate has been held for as long. -/
theorem replicate_suffix_iff (k : Nat) (gates : List Bool) :
    List.replicate k true <:+ gates ↔ k ≤ heldFor gates := by
  induction gates using List.reverseRecOn generalizing k with
  | nil => simp [heldFor]
  | append_singleton gates on ih =>
    rw [heldFor_concat]
    cases k with
    | zero => simp
    | succ k =>
      rw [List.replicate_succ', List.suffix_concat_iff]
      cases on with
      | false => simp
      | true => simp [ih]

/-! ## One scan -/

theorem Controller.readBit_relay (c : Controller) (tag : Tag) :
    c.readBit (.contact (.relay tag) false) = c.image.bit ⟨.contact, tag⟩ := Bool.bne_false _

theorem Controller.readBit_input (c : Controller) (tag : Tag) :
    c.readBit (.contact (.input tag) false) = c.image.bit ⟨.input, tag⟩ := Bool.bne_false _

namespace Plant

def circuits (p : Plant) : List Circuit := [p.holdCircuit, p.driveCircuit, p.lampCircuit]

def buttons (p : Plant) (img : Image) : Buttons where
  start := img.bit ⟨.input, p.start⟩
  stop := img.bit ⟨.input, p.stop⟩

/-- What a scan leaves when the latch is to be in some state: the motor follows the latch, and the
lamp the delay. -/
def settle (p : Plant) (img : Image) (run : Bool) : Image :=
  let delay := if run then Image.advance (img.word ⟨.timer, p.delay⟩) 3 else 0
  (((img.setBit ⟨.contact, p.run⟩ run).setBit ⟨.contact, p.motor⟩ run).setWord
    ⟨.timer, p.delay⟩ delay).setBit ⟨.contact, p.lamp⟩ (decide (3 ≤ delay))

theorem scan_holdCircuit (p : Plant) (img : Image) :
    p.holdCircuit.scan img = img.setBit ⟨.contact, p.run⟩
      ((p.buttons img).next (img.bit ⟨.contact, p.run⟩)) := by
  have hgate : p.holdCircuit.condition.eval img =
      (p.buttons img).next (img.bit ⟨.contact, p.run⟩) := by
    rw [holdCircuit, Condition.and, Condition.eval_combine, Condition.or, Condition.eval_combine,
      Condition.eval_negate]
    simp [Condition.eval, Bit.operand, Site.point, Image.evaluate, Image.readPoint, Operator.apply,
      Buttons.next, buttons]
  rw [Circuit.scan, hgate]
  rfl

theorem scan_driveCircuit (p : Plant) (img : Image) :
    p.driveCircuit.scan img =
      (img.setBit ⟨.contact, p.motor⟩ (img.bit ⟨.contact, p.run⟩)).setWord ⟨.timer, p.delay⟩
        (if img.bit ⟨.contact, p.run⟩ then Image.advance (img.word ⟨.timer, p.delay⟩) 3
          else 0) := by
  have hgate : p.driveCircuit.condition.eval img = img.bit ⟨.contact, p.run⟩ := Bool.bne_false _
  rw [Circuit.scan, hgate]
  rfl

theorem scan_lampCircuit (p : Plant) (img : Image) :
    p.lampCircuit.scan img =
      img.setBit ⟨.contact, p.lamp⟩ (decide (3 ≤ img.word ⟨.timer, p.delay⟩)) := rfl

/-- **One scan of the plant.** Each circuit finds what the circuits before it have left. -/
theorem foldl_scan_circuits (p : Plant) (img : Image) :
    p.circuits.foldl Circuit.scan img =
      p.settle img ((p.buttons img).next (img.bit ⟨.contact, p.run⟩)) := by
  rw [circuits, List.foldl_cons, List.foldl_cons, List.foldl_cons, List.foldl_nil,
    scan_holdCircuit, scan_driveCircuit, scan_lampCircuit, Image.bit_setBit, if_pos rfl,
    Image.word_setWord, if_pos rfl]
  rfl

/-! ## What the devices show -/

/-- No two contacts of the plant share their storage. -/
structure Distinct (p : Plant) : Prop where
  buttons : p.start ≠ p.stop
  run_motor : p.run ≠ p.motor
  run_lamp : p.run ≠ p.lamp
  motor_lamp : p.motor ≠ p.lamp

/-- What the devices of the plant show after a history. The timer shows for how many of the latest
scans the plant has run, up to three; the lamp is ON when it has in all three. -/
structure Shows (p : Plant) (c : Controller) (history : List Buttons) : Prop where
  run : c.readBit (.contact (.relay p.run) false) = running history
  motor : c.readBit (.contact (.relay p.motor) false) = running history
  delay : (c.readValue p.timer).toInt = min 3 (heldFor (runStates false history))
  lamp : c.readBit (.contact (.relay p.lamp) false) = true ↔
    List.replicate 3 true <:+ runStates false history

theorem readValue_timer (c : Controller) (p : Plant) :
    c.readValue p.timer = c.image.word ⟨.timer, p.delay⟩ := rfl

theorem shows_nil (p : Plant) : p.Shows {} [] := by
  have hbit : ∀ cell, ({} : Image).bit cell = false := fun cell => by simp [Image.bit, Image.bit?]
  have hword : ∀ cell, ({} : Image).word cell = 0 := fun cell => by simp [Image.word, Image.word?]
  constructor
  · rw [Controller.readBit_relay, hbit]
    rfl
  · rw [Controller.readBit_relay, hbit]
    rfl
  · rw [readValue_timer, hword]
    rfl
  · rw [Controller.readBit_relay, hbit]
    simp [runStates]

/-- Pressing a button shows only in the next scan. -/
theorem Shows.setInput {p : Plant} {c : Controller} {history : List Buttons}
    (h : p.Shows c history) (input : Tag) (state : Bool) :
    p.Shows (c.setInput input state) history := by
  have hcontact : ∀ tag, (c.setInput input state).readBit (.contact (.relay tag) false) =
      c.readBit (.contact (.relay tag) false) := fun tag => by
    rw [Controller.readBit_relay, Controller.readBit_relay]
    exact (Image.bit_setBit _ _ _ state).trans (if_neg nofun)
  exact ⟨(hcontact _).trans h.run, (hcontact _).trans h.motor, h.delay, by rw [hcontact, h.lamp]⟩

section Settle

variable (p : Plant) (img : Image) (run : Bool)

theorem buttons_settle : p.buttons (p.settle img run) = p.buttons img := by
  simp [buttons, settle, Image.bit]

theorem word_delay_settle :
    (p.settle img run).word ⟨.timer, p.delay⟩ =
      if run then Image.advance (img.word ⟨.timer, p.delay⟩) 3 else 0 := by
  simp [settle, Image.word]

theorem toInt_delay_settle {states : List Bool}
    (h : (img.word ⟨.timer, p.delay⟩).toInt = min 3 (heldFor states)) :
    ((p.settle img run).word ⟨.timer, p.delay⟩).toInt = min 3 (heldFor (states ++ [run])) := by
  have hthree : (3 : Int64).toInt = 3 := rfl
  rw [word_delay_settle, heldFor_concat]
  cases run with
  | false => rfl
  | true =>
    rw [if_pos rfl, if_pos rfl, Image.toInt_advance, h, hthree]
    split_ifs <;> omega

theorem bit_lamp_settle :
    (p.settle img run).bit ⟨.contact, p.lamp⟩ =
      decide (3 ≤ (p.settle img run).word ⟨.timer, p.delay⟩) := by
  rw [word_delay_settle]
  simp [settle, Image.bit]

variable {p} (hp : p.Distinct)

include hp

theorem bit_run_settle : (p.settle img run).bit ⟨.contact, p.run⟩ = run := by
  simp [settle, Image.bit, hp.run_motor.symm, hp.run_lamp.symm]

theorem bit_motor_settle : (p.settle img run).bit ⟨.contact, p.motor⟩ = run := by
  simp [settle, Image.bit, hp.motor_lamp.symm]

end Settle

/-- **A scan moves what the devices show on by the buttons that it finds**, and leaves the buttons
alone. -/
theorem Shows.scan {p : Plant} (hp : p.Distinct) {src : Source} (hsrc : src.circuits = p.circuits)
    {s : Sequence} (hs : s.Realizes src) {c : Controller} {history : List Buttons}
    (h : p.Shows c history) :
    ∃ c', c.run s = (c', none) ∧ p.buttons c'.image = p.buttons c.image ∧
      p.Shows c' (history ++ [p.buttons c.image]) := by
  have hrun : c.image.bit ⟨.contact, p.run⟩ = running history := by
    rw [← h.run, Controller.readBit_relay]
  have himage : src.scan c.image =
      p.settle c.image ((p.buttons c.image).next (running history)) := by
    rw [Source.scan, hsrc, foldl_scan_circuits, hrun]
  have hdelay := p.toInt_delay_settle c.image ((p.buttons c.image).next (running history)) h.delay
  have hstates : runStates false (history ++ [p.buttons c.image]) =
      runStates false history ++ [(p.buttons c.image).next (running history)] :=
    runStates_concat false history _
  refine ⟨_, hs c, ?_, ?_⟩
  · rw [himage, buttons_settle]
  · rw [himage]
    constructor
    · rw [Controller.readBit_relay, bit_run_settle _ _ hp, running_concat]
    · rw [Controller.readBit_relay, bit_motor_settle _ _ hp, running_concat]
    · rw [readValue_timer, hdelay, hstates]
    · have hthree : (3 : Int64).toInt = 3 := rfl
      rw [Controller.readBit_relay, bit_lamp_settle, decide_eq_true_iff, hstates,
        replicate_suffix_iff, Int64.le_iff_toInt_le, hdelay, hthree]
      omega

/-! ## Whole histories -/

/-- The events of a history: before each scan both buttons are set. -/
def events (p : Plant) (history : List Buttons) : List Event :=
  history.flatMap fun b => [.setInput p.start b.start, .setInput p.stop b.stop, .scan]

theorem count_scan_events (p : Plant) (history : List Buttons) :
    (p.events history).count .scan = history.length := by
  induction history with
  | nil => rfl
  | cons b history ih =>
    rw [events, List.flatMap_cons, List.count_append, ← events, ih, List.length_cons, Nat.add_comm]
    rfl

section Press

variable {p : Plant} (hp : p.Distinct) (c : Controller) (state : Bool)

include hp

theorem buttons_setInput_start :
    p.buttons (c.setInput p.start state).image = { p.buttons c.image with start := state } := by
  simp [buttons, Controller.setInput, Image.writePoint, Image.bit, hp.buttons]

theorem buttons_setInput_stop :
    p.buttons (c.setInput p.stop state).image = { p.buttons c.image with stop := state } := by
  simp [buttons, Controller.setInput, Image.writePoint, Image.bit, hp.buttons.symm]

theorem exists_input? (hstart : p.start.address = 0) (hstop : p.stop.address = 1) {address : UInt32}
    (haddress : address = 0 ∨ address = 1) :
    ∃ tag, p.input? address = some tag ∧ ∀ c : Controller,
      p.buttons (c.setInput tag true).image =
        ⟨decide (0 = address) || (p.buttons c.image).start,
          decide (1 = address) || (p.buttons c.image).stop⟩ := by
  rcases haddress with rfl | rfl
  · refine ⟨p.start, by simp [input?, hstart], fun c => ?_⟩
    rw [buttons_setInput_start hp]
    rfl
  · refine ⟨p.stop, by simp [input?, hstart, hstop], fun c => ?_⟩
    rw [buttons_setInput_stop hp]
    rfl

end Press

/-- **The plant over a history** shows what the history says, in any sequence that realizes its
circuits. -/
theorem shows_follow {p : Plant} (hp : p.Distinct) {src : Source} (hsrc : src.circuits = p.circuits)
    {s : Sequence} (hs : s.Realizes src) (history : List Buttons) :
    p.Shows (({} : Controller).follow s (p.events history)) history := by
  induction history using List.reverseRecOn with
  | nil => exact p.shows_nil
  | append_singleton history b ih =>
    have hpressed := (ih.setInput p.start b.start).setInput p.stop b.stop
    obtain ⟨c, hrun, -, hshows⟩ := hpressed.scan hp hsrc hs
    rw [buttons_setInput_stop hp, buttons_setInput_start hp] at hshows
    have hfollow : ({} : Controller).follow s (p.events (history ++ [b])) =
        ((((({} : Controller).follow s (p.events history)).setInput p.start b.start).setInput
          p.stop b.stop).run s).1 := by
      rw [events, List.flatMap_append, Controller.follow, List.foldl_append]
      rfl
    rw [hfollow, hrun]
    exact hshows

/-- **Scans with the buttons held** lengthen the history by as many entries, all alike. -/
theorem Shows.follow_scans {p : Plant} (hp : p.Distinct) {src : Source}
    (hsrc : src.circuits = p.circuits) {s : Sequence} (hs : s.Realizes src) {c : Controller}
    {history : List Buttons} (h : p.Shows c history) (n : Nat) :
    p.buttons (c.follow s (List.replicate n .scan)).image = p.buttons c.image ∧
      p.Shows (c.follow s (List.replicate n .scan))
        (history ++ List.replicate n (p.buttons c.image)) := by
  induction n generalizing c history with
  | zero =>
    rw [List.replicate_zero, List.replicate_zero, List.append_nil]
    exact ⟨rfl, h⟩
  | succ n ih =>
    obtain ⟨c', hrun, hbuttons, hshows⟩ := h.scan hp hsrc hs
    obtain ⟨hbuttons', hshows'⟩ := ih hshows
    rw [Controller.follow_scan_succ, hrun]
    refine ⟨hbuttons'.trans hbuttons, ?_⟩
    simpa [List.replicate_succ, hbuttons] using hshows'

theorem Shows.stopped {p : Plant} {c : Controller} {history : List Buttons} {b : Buttons}
    (h : p.Shows c (history ++ [b])) (hstop : b.stop = true) :
    c.readBit (.contact (.relay p.motor) false) = false ∧
      c.readBit (.contact (.relay p.lamp) false) = false := by
  have hoff : ∀ run, b.next run = false := fun run => by rw [Buttons.next, hstop]; simp
  constructor
  · rw [h.motor, running_concat, hoff]
  · rw [← Bool.not_eq_true, h.lamp, runStates_concat, hoff, replicate_suffix_iff, heldFor_concat]
    simp

end Plant

/-! ## The demonstration -/

namespace CommandLine.Demo

variable {d : Demo} {history : List Buttons}

theorem hold_cons {address : UInt32} {tag : Tag} (h : d.plant.input? address = some tag)
    (addresses : List UInt32) :
    d.hold (address :: addresses) =
      { d with controller := d.controller.setInput tag true }.hold addresses := by
  rw [hold, h]

/-- Holding inputs of the plant presses their buttons, and shows in nothing else yet. -/
theorem exists_hold (hp : d.plant.Distinct) (hstart : d.plant.start.address = 0)
    (hstop : d.plant.stop.address = 1) {inputs : List UInt32}
    (hinputs : ∀ address ∈ inputs, address = 0 ∨ address = 1)
    (h : d.plant.Shows d.controller history) :
    ∃ c, d.hold inputs = .ok { d with controller := c } ∧
      c.scanCount = d.controller.scanCount ∧ c.stopRequested = d.controller.stopRequested ∧
      d.plant.Shows c history ∧
      d.plant.buttons c.image =
        ⟨decide (0 ∈ inputs) || (d.plant.buttons d.controller.image).start,
          decide (1 ∈ inputs) || (d.plant.buttons d.controller.image).stop⟩ := by
  induction inputs generalizing d with
  | nil => exact ⟨d.controller, rfl, rfl, rfl, h, by simp⟩
  | cons address inputs ih =>
    rw [List.forall_mem_cons] at hinputs
    obtain ⟨tag, hinput, hpress⟩ := Plant.exists_input? hp hstart hstop hinputs.1
    obtain ⟨c, hhold, hcount, hstop, hshows, hbuttons⟩ :=
      ih (d := { d with controller := d.controller.setInput tag true }) hp hstart hstop hinputs.2
        (h.setInput tag true)
    refine ⟨c, (hold_cons hinput inputs).trans hhold, hcount, hstop, hshows, ?_⟩
    rw [hbuttons, hpress]
    simp [Bool.or_assoc, Bool.or_left_comm]

theorem scanUpTo_of_finished {max : Nat} (h : d.finished (some max) = true) :
    d.scanUpTo max = (d, none) := by
  rw [scanUpTo, dif_pos h]

theorem scanUpTo_of_scan {d' : Demo} {max : Nat} (h : ¬ d.finished (some max) = true)
    (hscan : d.scan = (d', none)) : d.scanUpTo max = d'.scanUpTo max := by
  rw [scanUpTo, dif_neg h]
  split
  case h_1 hscan' =>
    rw [hscan] at hscan'
    cases hscan'
    rfl
  case h_2 hscan' =>
    rw [hscan] at hscan'
    cases hscan'

/-- **The loop runs the scans that are missing** from what was asked for, unless it is stopped. -/
theorem scanUpTo_eq_follow {src : Source} (hs : d.sequence.Realizes src)
    (hstop : d.controller.stopRequested = false) {n max : Nat}
    (hmax : d.controller.scanCount + n = max) :
    d.scanUpTo max =
      ({ d with controller := d.controller.follow d.sequence (List.replicate n .scan) }, none) := by
  induction n generalizing d with
  | zero =>
    have hdue : d.finished (some max) = true := by
      simp [finished, ← hmax]
    rw [scanUpTo_of_finished hdue]
    rfl
  | succ n ih =>
    have hdue : ¬ d.finished (some max) = true := by
      simp only [finished, hstop, Option.any_some, Bool.false_or, decide_eq_true_eq]
      omega
    have hrun := hs d.controller
    have hscan : d.scan = ({ d with controller := (d.controller.run d.sequence).1 }, none) := by
      rw [scan, hrun]
    rw [scanUpTo_of_scan hdue hscan, Controller.follow_scan_succ]
    refine ih hs ?_ ?_
    · rw [hrun]
      exact hstop
    · rw [hrun, ← hmax, Nat.add_assoc, Nat.add_comm 1 n]

theorem load_eq {unit : LogicUnit} {p : Plant} {s : Sequence} (hbuild : Plant.build = .ok (unit, p))
    (hcompile : unit.compile = .ok s) : load = .ok { unit, plant := p, sequence := s } := by
  simp only [load, hbuild, Except.mapError, bind, Except.bind, hcompile]
  rfl

theorem prepare_eq {d' : Demo} {inputs : List UInt32} (hload : load = .ok d)
    (hhold : d.hold inputs = .ok d') (listing : Bool) :
    prepare inputs listing =
      ({ output := if listing then d.listing else "", records := d.loadRecords }, some d') := by
  unfold prepare
  rw [hload]
  dsimp only
  rw [hhold]

theorem complete_eq {n : Nat} {c : Controller}
    (hloop : d.scanUpTo n = ({ d with controller := c }, none)) (told : Transcript) :
    complete told d n =
      { told with
        output := told.output ++ { d with controller := c }.summary
        records := told.records ++ { d with controller := c }.scanRecords } := by
  unfold complete
  rw [hloop]

theorem transcript_demo {told : Transcript} {inputs : List UInt32} {listing : Bool}
    (h : prepare inputs listing = (told, some d)) (n : Nat) :
    (Task.demo (some n) inputs listing).transcript = complete told d n := by
  unfold Task.transcript
  simp only [h]

end CommandLine.Demo

open CommandLine

def Plant.issued : Plant :=
  ⟨⟨"X", 0⟩, ⟨"X", 1⟩, ⟨"M", 0⟩, ⟨"Y", 0⟩, ⟨"Y", 1⟩, ⟨"T", 0⟩⟩

theorem Plant.exists_build :
    ∃ unit, build = .ok (unit, issued) ∧ unit.circuits = issued.circuits := ⟨_, rfl, rfl⟩

theorem Plant.distinct_issued : issued.Distinct := by constructor <;> decide

/-- **The motor plant behaves as its ladder says**, in every history of its buttons; and the
demonstration ends after as many scans as are asked for. -/
theorem Plant.follows_ladder :
    ∃ unit s, build = .ok (unit, issued) ∧ unit.compile = .ok s ∧
      (∀ history, ∃ c, ({} : Controller).follow s (issued.events history) = c ∧
        c.scanCount = history.length ∧ issued.Shows c history ∧
        ∀ earlier b, history = earlier ++ [b] → b.stop = true →
          c.readBit (.contact (.relay issued.motor) false) = false ∧
          c.readBit (.contact (.relay issued.lamp) false) = false) ∧
      ∀ (n : Nat) (inputs : List UInt32) (listing : Bool),
        (∀ address ∈ inputs, address = 0 ∨ address = 1) →
        ∃ d held c, Demo.load = .ok d ∧ d.plant = issued ∧ d.sequence = s ∧
          d.hold inputs = .ok { d with controller := held } ∧
          { d with controller := held }.scanUpTo n = ({ d with controller := c }, none) ∧
          held.follow s (List.replicate n .scan) = c ∧ c.scanCount = n ∧
          c.readBit (.contact (.input issued.start) false) = decide (0 ∈ inputs) ∧
          c.readBit (.contact (.input issued.stop) false) = decide (1 ∈ inputs) ∧
          issued.Shows c (List.replicate n ⟨decide (0 ∈ inputs), decide (1 ∈ inputs)⟩) ∧
          (Task.demo (some n) inputs listing).transcript =
            { output := (if listing then d.listing else "") ++ { d with controller := c }.summary
              records := d.loadRecords ++ { d with controller := c }.scanRecords
              failure := none } := by
  obtain ⟨unit, hbuild, hcircuits⟩ := exists_build
  obtain ⟨s, hcompile, hs⟩ := (Source.unit unit).exists_compile_run
  have hsrc : (Source.unit unit).circuits = issued.circuits := by
    rw [← hcircuits]
    simp [Source.circuits, Source.units]
  refine ⟨unit, s, hbuild, hcompile, fun history => ?_, fun n inputs listing hinputs => ?_⟩
  · have hshows := shows_follow distinct_issued hsrc hs history
    refine ⟨_, rfl, ?_, hshows, ?_⟩
    · rw [Controller.scanCount_follow hs, count_scan_events]
      exact Nat.zero_add _
    · rintro earlier b rfl hstop
      exact hshows.stopped hstop
  · have hload := Demo.load_eq hbuild hcompile
    obtain ⟨held, hhold, hcount, hstop, hshows, hbuttons⟩ := Demo.exists_hold
      (d := { unit, plant := issued, sequence := s }) distinct_issued rfl rfl hinputs
      issued.shows_nil
    -- the controller is fresh but for its inputs, so all scans are missing
    have hmissing : held.scanCount + n = n := by rw [hcount, Nat.zero_add]
    have hloop := Demo.scanUpTo_eq_follow
      (d := { unit, plant := issued, sequence := s, controller := held }) hs hstop hmissing
    obtain ⟨hbuttons', hshows'⟩ := hshows.follow_scans distinct_issued hsrc hs n
    have hpressed : issued.buttons held.image =
        ⟨decide (0 ∈ inputs), decide (1 ∈ inputs)⟩ := by
      have hfresh : issued.buttons {} = ⟨false, false⟩ := by decide
      rw [hbuttons, hfresh, Bool.or_false, Bool.or_false]
    have hkept := hbuttons'.trans hpressed
    refine ⟨_, held, _, hload, rfl, rfl, hhold, hloop, rfl, ?_, ?_, ?_, ?_, ?_⟩
    · rw [Controller.scanCount_follow hs, List.count_replicate_self, hmissing]
    · exact (Controller.readBit_input _ _).trans (congrArg Buttons.start hkept)
    · exact (Controller.readBit_input _ _).trans (congrArg Buttons.stop hkept)
    · rw [← hpressed]
      exact hshows'
    · rw [Demo.transcript_demo (Demo.prepare_eq hload hhold listing), Demo.complete_eq hloop]

end Rung
