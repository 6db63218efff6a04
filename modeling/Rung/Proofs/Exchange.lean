import Mathlib.Data.List.Basic
import Rung.Proofs.Runs

/-!
# Exchanging circuits

Two stretches of circuits are interchangeable when either can stand in place of the other, anywhere
in a unit and whatever program the unit belongs to, and neither a scan nor a run shows it. For this
they need only do the same to every image.

* `Source.SameRuns`: two sources whose sequences do the same;
* `Source.Exchanged`: two sources that differ in one unit;
* `Interchangeable`, **`interchangeable_of_foldl_scan_eq`**.
-/

namespace Rung

/-! ## Sources that do the same -/

theorem Controller.follow_congr {s s' : Sequence} (h : ∀ c : Controller, c.run s = c.run s')
    (c : Controller) (events : List Event) : c.follow s events = c.follow s' events := by
  have hreact : ∀ (c : Controller) (e : Event), c.react s e = c.react s' e := by
    intro c e
    cases e with
    | scan => rw [react, react, h]
    | setInput _ _ | setBit _ _ | setValue _ _ => rfl
  exact List.foldl_ext _ _ c fun c e _ => hreact c e

namespace Source

/-- Two sources compile, and their sequences do the same: a scan of either turns every image, without
a trap, into one and the same image, and all events lead every controller to the same state. -/
def SameRuns (src src' : Source) : Prop :=
  ∃ s s', src.compile = .ok s ∧ src'.compile = .ok s' ∧
    (∀ img, ∃ img', execute s.commands img = (img', none) ∧
      execute s'.commands img = (img', none)) ∧
    ∀ (c : Controller) (events : List Event), c.follow s events = c.follow s' events

theorem sameRuns_of_scan_eq {src src' : Source} (h : ∀ img, src.scan img = src'.scan img) :
    src.SameRuns src' := by
  obtain ⟨s, hs, hexecute⟩ := src.exists_compile_execute
  obtain ⟨s', hs', hexecute'⟩ := src'.exists_compile_execute
  refine ⟨s, s', hs, hs', fun img => ⟨src.scan img, hexecute img, ?_⟩, fun c events => ?_⟩
  · rw [hexecute', h]
  · refine Controller.follow_congr (fun c => ?_) c events
    rw [Controller.run, Controller.run, hexecute, hexecute', h]

/-- Two sources that are the same but for one unit, which is `u` in the first and `u'` in the
second. -/
inductive Exchanged (u u' : LogicUnit) : Source → Source → Prop
  | unit : Exchanged u u' (.unit u) (.unit u')
  | program {p p' : Program} {name : String} (first : p.unit? name = some u)
      (second : p'.unit? name = some u')
      (others : ∀ other, other ≠ name → p'.unit? other = p.unit? other) :
      Exchanged u u' (.program p) (.program p')

end Source

/-- Units under the same names, but for one, are listed in the same order. -/
theorem Program.unitList_of_exchanged {p p' : Program} {name : String} {u u' : LogicUnit}
    (first : p.unit? name = some u) (second : p'.unit? name = some u')
    (others : ∀ other, other ≠ name → p'.unit? other = p.unit? other) :
    p'.unitList = p.unitList.map fun (key, v) => (key, if key = name then u' else v) := by
  have hunits : p'.units = p.units.map fun key v => if key = name then u' else v := by
    refine Std.ExtTreeMap.ext_getElem? fun key => ?_
    rw [Std.ExtTreeMap.getElem?_map]
    by_cases hkey : key = name
    · subst hkey
      change p'.unit? key = (p.unit? key).map _
      rw [first, second, Option.map_some, if_pos rfl]
    · change p'.unit? key = (p.unit? key).map _
      simp [others key hkey, hkey]
  rw [unitList, hunits, Std.ExtTreeMap.toList_map, unitList]

namespace Source

theorem Exchanged.scan_eq {u u' : LogicUnit} (hu : ∀ img, u.scan img = u'.scan img)
    {src src' : Source} (h : Exchanged u u' src src') (img : Image) :
    src.scan img = src'.scan img := by
  rw [scan_eq_foldl_units, scan_eq_foldl_units]
  cases h with
  | unit => exact hu img
  | @program p p' name first second others =>
    change p.unitList.foldl _ img = p'.unitList.foldl _ img
    rw [Program.unitList_of_exchanged first second others, List.foldl_map]
    refine List.foldl_ext _ _ img fun img' nv hmem => ?_
    obtain ⟨key, v⟩ := nv
    by_cases hkey : key = name
    · -- under the name of the exchanged unit the program lists just that unit
      have hv : p.unit? key = some v := Std.ExtTreeMap.mem_toList_iff_getElem?_eq_some.mp hmem
      obtain rfl : v = u := by
        rw [hkey, first] at hv
        exact (Option.some.inj hv).symm
      simpa [hkey] using hu img'
    · simp [hkey]

end Source

/-! ## Circuits that do the same -/

/-- Two stretches of circuits that can stand for each other: with one of them in place of the other
in a unit, alone or in a program, every scan and every run is the same. -/
def Interchangeable (cs ds : List Circuit) : Prop :=
  ∀ (before after : List Circuit) {u u' : LogicUnit},
    u.circuits = before ++ (cs ++ after) → u'.circuits = before ++ (ds ++ after) →
    ∀ {src src' : Source}, Source.Exchanged u u' src src' → src.SameRuns src'

/-- **Stretches of circuits are interchangeable if they do the same to every image.** -/
theorem interchangeable_of_foldl_scan_eq {cs ds : List Circuit}
    (h : ∀ img, cs.foldl Circuit.scan img = ds.foldl Circuit.scan img) :
    Interchangeable cs ds := by
  intro before after u u' hu hu' src src' hsrc
  have hscan : ∀ img, u.scan img = u'.scan img := by
    intro img
    simp only [LogicUnit.scan, hu, hu', List.foldl_append, h]
  exact Source.sameRuns_of_scan_eq (hsrc.scan_eq hscan)

end Rung
