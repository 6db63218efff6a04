import Mathlib.Logic.Function.Iterate
import Rung.Controller
import Rung.Proofs.Compilation
import Rung.Proofs.Footprint

/-!
# Runs of a controller

A controller runs scans of one compiled sequence; between scans its devices can be forced from
outside.

* `Source`: what is compiled, a program or a single unit, with its circuits, actions and cells;
* `Event`, `Controller.react`, `Controller.follow`: a run, event by event;
* `Source.exists_compile_execute`, `Controller.run_eq`, `Sequence.Realizes`,
  `Source.exists_compile_run`: a compiled source runs, scan by scan, as it is meant;
* `Source.scan_induction`: what every effect of the source keeps, a scan keeps;
* `Controller.follow_scans`: runs of scans only.
-/

namespace Rung

/-! ## Sources -/

/-- What is compiled: a program or a single unit. -/
inductive Source where
  | program (program : Program)
  | unit (unit : LogicUnit)

namespace Source

def compile : Source → Except Diagnostic Sequence
  | program p => p.compile
  | unit u => u.compile

def units : Source → List (String × LogicUnit)
  | program p => p.unitList
  | unit u => [(u.name, u)]

def circuits (src : Source) : List Circuit := src.units.flatMap fun (_, u) => u.circuits

def actions (src : Source) : List Action := src.circuits.flatMap Circuit.actions

def reads (src : Source) : List Cell := src.circuits.flatMap Circuit.reads

def writes (src : Source) : List Cell := src.circuits.flatMap Circuit.writes

def scan (src : Source) (img : Image) : Image := src.circuits.foldl Circuit.scan img

theorem compile_eq_addUnits (src : Source) : src.compile = Sequence.addUnits {} src.units := by
  cases src <;> rfl

theorem scan_eq_foldl_units (src : Source) (img : Image) :
    src.scan img = src.units.foldl (fun img (_, u) => u.scan img) img := by
  rw [scan, circuits, List.foldl_flatMap]
  rfl

theorem exists_compile_execute (src : Source) :
    ∃ s, src.compile = .ok s ∧ ∀ img, execute s.commands img = (src.scan img, none) := by
  obtain ⟨s, hs, hexecute⟩ := exists_addUnits_execute src.units
  refine ⟨s, by rw [compile_eq_addUnits, hs], fun img => ?_⟩
  rw [hexecute, scan_eq_foldl_units]

end Source

/-- A controller hands its image to a scan and takes it back. It counts the scans that end well. -/
theorem Controller.run_eq (c : Controller) (s : Sequence) :
    c.run s =
      ({ c with
          image := (execute s.commands c.image).1
          scanCount := c.scanCount + if (execute s.commands c.image).2 = none then 1 else 0 },
        (execute s.commands c.image).2) := by
  rw [run]
  split
  case h_1 hend | h_2 hend =>
    rw [hend]
    rfl

/-- Controllers run the sequence as the source is meant, without a trap. -/
def Sequence.Realizes (s : Sequence) (src : Source) : Prop :=
  ∀ c : Controller,
    c.run s = ({ c with image := src.scan c.image, scanCount := c.scanCount + 1 }, none)

namespace Source

/-- **A source compiles to a sequence that realizes it.** -/
theorem exists_compile_run (src : Source) : ∃ s, src.compile = .ok s ∧ s.Realizes src := by
  obtain ⟨s, hs, hexecute⟩ := src.exists_compile_execute
  exact ⟨s, hs, fun c => by rw [Controller.run_eq, hexecute, if_pos rfl]⟩

/-- What every effect of the source keeps, under any gate, a scan keeps. -/
theorem scan_induction {src : Source} {P : Image → Prop}
    (h : ∀ a ∈ src.actions, ∀ img on, P img → P (img.apply a.how.effect a.target.target on))
    {img : Image} (himg : P img) : P (src.scan img) := by
  refine List.foldlRecOn src.circuits Circuit.scan himg fun img himg c hc => ?_
  refine List.foldlRecOn c.actions _ himg fun img' himg' a ha => ?_
  rw [Action.perform_eq_apply]
  exact h a (List.mem_flatMap.mpr ⟨c, hc, ha⟩) img' _ himg'

end Source

/-! ## Events -/

/-- What happens to a controller: a device is forced from outside, or a scan is run. -/
inductive Event where
  | setInput (input : Tag) (state : Bool)
  | setBit (bit : Bit) (state : Bool)
  | setValue (word : Word) (value : Int64)
  | scan
  deriving DecidableEq, Repr

namespace Controller

def react (s : Sequence) (c : Controller) : Event → Controller
  | .setInput input state => c.setInput input state
  | .setBit b state => (c.setBit b state).1
  | .setValue w value => (c.setValue w value).1
  | .scan => (c.run s).1

def follow (s : Sequence) (c : Controller) (events : List Event) : Controller :=
  events.foldl (react s) c

theorem image_react_setBit_contact (s : Sequence) (c : Controller) (site : Site)
    (inverse state : Bool) :
    (c.react s (.setBit (.contact site inverse) state)).image =
      c.image.writePoint site.point (state != inverse) := rfl

theorem image_react_setValue (s : Sequence) (c : Controller) (w : Word) (value : Int64) :
    (c.react s (.setValue w value)).image = c.image.writeValue w.value value := by
  cases w <;> rfl

theorem follow_scan_succ (s : Sequence) (c : Controller) (n : Nat) :
    c.follow s (List.replicate (n + 1) .scan) =
      (c.run s).1.follow s (List.replicate n .scan) := rfl

theorem follow_scans {s : Sequence} {f : Image → Image}
    (h : ∀ c : Controller, c.run s = ({ c with image := f c.image, scanCount := c.scanCount + 1 },
      none)) (c : Controller) (n : Nat) :
    c.follow s (List.replicate n .scan) =
      { c with image := f^[n] c.image, scanCount := c.scanCount + n } := by
  induction n generalizing c with
  | zero => rfl
  | succ n ih =>
    rw [follow_scan_succ, h]
    refine (ih _).trans ?_
    rw [Function.iterate_succ_apply, Nat.add_right_comm, Nat.add_assoc]

end Controller

end Rung
