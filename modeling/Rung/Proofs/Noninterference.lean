import Rung.Proofs.Entries

/-!
# Noninterference

What a source does to the cells that it reads and writes depends on these cells alone. Two runs that
start with the same readings there, and in which the environment writes the same there, keep the
same readings. Other devices may differ from the start or be forced differently, and a device that
was never written cannot be told from one that stores OFF or 0.

* `Image.AgreeOn.scan`, `Source.agreeOn_scan`: one scan of two runs;
* `Event.concerns`, `Controller.agreeOn_follow_filter`: events elsewhere make no difference;
* **`Source.follow_agreeOn`**: whole runs agree.
-/

namespace Rung

namespace Image.AgreeOn

variable {img img' : Image} {cells : List Cell}

/-! ## Writing -/

theorem writePoint (h : AgreeOn cells img img') (point : Point) (state : Bool) :
    AgreeOn cells (img.writePoint point state) (img'.writePoint point state) := by
  rw [writePoint_eq_foldl_enter, writePoint_eq_foldl_enter]
  exact h.foldl_enter _

theorem writeValue (h : AgreeOn cells img img') (place : Value) (value : Int64) :
    AgreeOn cells (img.writeValue place value) (img'.writeValue place value) := by
  cases place with
  | constant _ => exact h
  | cell c => exact h.foldl_enter [.word c value]

/-! ## Scans -/

theorem scan (h : AgreeOn cells img img') {c : Circuit} (hr : c.reads ⊆ cells)
    (hw : c.writes ⊆ cells) : AgreeOn cells (c.scan img) (c.scan img') := by
  have hcarries : ∀ a ∈ c.actions, a.carries ⊆ cells := fun a ha cell hcell =>
    hw (List.mem_flatMap.mpr ⟨a, ha, a.carries_subset_writes hcell⟩)
  rw [Circuit.scan_eq_foldl_enter, Circuit.scan_eq_foldl_enter, Circuit.entries_congr hr hcarries h]
  exact h.foldl_enter _

end Image.AgreeOn

def Source.cells (src : Source) : List Cell := src.reads ++ src.writes

theorem Source.agreeOn_scan {src : Source} {img img' : Image}
    (h : Image.AgreeOn src.cells img img') :
    Image.AgreeOn src.cells (src.scan img) (src.scan img') := by
  refine List.foldl_rel h fun c hc i i' hi => hi.scan (fun cell hcell => ?_) (fun cell hcell => ?_)
  · exact List.mem_append_left _ (List.mem_flatMap.mpr ⟨c, hc, hcell⟩)
  · exact List.mem_append_right _ (List.mem_flatMap.mpr ⟨c, hc, hcell⟩)

/-! ## Runs -/

namespace Event

/-- The cells that the environment writes; none when its request is refused. -/
def cells : Event → List Cell
  | setInput input _ => [.bit ⟨.input, input⟩]
  | setBit (.contact site _) _ => [site.cell]
  | setBit (.compare _ _ _) _ => []
  | setValue w _ => w.cells
  | scan => []

/-- Whether an event is a scan or writes one of some cells. -/
def concerns (cells : List Cell) : Event → Bool
  | scan => true
  | e => e.cells.any (· ∈ cells)

end Event

namespace Controller

variable {cells : List Cell} {s : Sequence}

theorem sameAt_react (c : Controller) {e : Event} (he : e ≠ .scan) {cell : Cell}
    (hcell : cell ∉ e.cells) : (c.react s e).image.SameAt c.image cell := by
  cases e with
  | scan => exact absurd rfl he
  | setInput input state => exact c.image.sameAt_setBit state (List.ne_of_not_mem_cons hcell)
  | setBit b state =>
    cases b with
    | contact site inverse =>
      rw [image_react_setBit_contact]
      refine c.image.sameAt_writePoint _ ?_
      rw [Site.cell_point]
      exact List.ne_of_not_mem_cons hcell
    | compare left relation right => exact Image.SameAt.refl c.image cell
  | setValue w value =>
    cases w with
    | constant name v => exact Image.SameAt.refl c.image cell
    | memory m | timer tag preset | counter tag preset =>
      exact c.image.sameAt_setWord value (List.ne_of_not_mem_cons hcell)

theorem agreeOn_react_of_not_concerns (c : Controller) {e : Event}
    (he : e.concerns cells = false) : Image.AgreeOn cells (c.react s e).image c.image := by
  intro cell hcell
  refine (c.sameAt_react (fun hscan => ?_) fun hmem => ?_).agreeAt
  · rw [hscan] at he
    cases he
  · cases e with
    | scan => cases he
    | setInput _ _ | setBit _ _ | setValue _ _ =>
      have hany := List.any_eq_false.mp he cell hmem
      simp [hcell] at hany

theorem agreeOn_react {c c' : Controller} {e : Event} (h : Image.AgreeOn cells c.image c'.image)
    (hscan : e ≠ .scan) : Image.AgreeOn cells (c.react s e).image (c'.react s e).image := by
  cases e with
  | scan => exact absurd rfl hscan
  | setInput input state => exact h.writePoint (.input input) state
  | setBit b state =>
    cases b with
    | contact site inverse =>
      rw [image_react_setBit_contact, image_react_setBit_contact]
      exact h.writePoint site.point _
    | compare left relation right => exact h
  | setValue w value =>
    rw [image_react_setValue, image_react_setValue]
    exact h.writeValue w.value value

/-- A run agrees with the run of the events that concern the source, from images that agree. -/
theorem agreeOn_follow_filter {src : Source} (hrun : s.Realizes src) (events : List Event)
    {c c' : Controller} (h : Image.AgreeOn src.cells c.image c'.image) :
    Image.AgreeOn src.cells (c.follow s events).image
      (c'.follow s (events.filter (Event.concerns src.cells))).image := by
  induction events generalizing c c' with
  | nil => exact h
  | cons e events ih =>
    by_cases he : e.concerns src.cells = true
    · rw [List.filter_cons_of_pos he]
      refine ih ?_
      by_cases hscan : e = .scan
      · rw [hscan, react, react, hrun c, hrun c']
        exact Source.agreeOn_scan h
      · exact agreeOn_react h hscan
    · rw [List.filter_cons_of_neg he]
      exact ih ((agreeOn_react_of_not_concerns c (Bool.eq_false_iff.mpr he)).trans h)

end Controller

/-- **Noninterference.** Requests to write cells that a source neither reads nor writes make no
difference to the cells that it does. -/
theorem Source.follow_agreeOn (src : Source) {c c' : Controller}
    (h : Image.AgreeOn (src.reads ++ src.writes) c.image c'.image) {events events' : List Event}
    (hevents : events.filter (Event.concerns (src.reads ++ src.writes)) =
      events'.filter (Event.concerns (src.reads ++ src.writes))) :
    ∃ s, src.compile = .ok s ∧
      Image.AgreeOn (src.reads ++ src.writes) (c.follow s events).image
        (c'.follow s events').image := by
  obtain ⟨s, hs, hrun⟩ := src.exists_compile_run
  refine ⟨s, hs, ?_⟩
  have hleft := Controller.agreeOn_follow_filter hrun events h
  have hright := Controller.agreeOn_follow_filter hrun events' (.refl src.cells c'.image)
  rw [Source.cells, hevents] at hleft
  exact hleft.trans hright.symm

/-- A counter with a preset in memory, driven by an input, and a guarded move of its value. -/
def pulseUnit : LogicUnit where
  name := "pulse"
  circuits :=
    [⟨.leaf (.contact (.input ⟨"X", 0⟩) false),
      [.output (.counter ⟨"C", 0⟩ (.memory ⟨⟨"D", 0⟩, .int16⟩)),
        .interlocked (.leaf (.contact (.relay ⟨"M", 0⟩) true))
          (.write (.counter ⟨"C", 0⟩ (.constant "" 0)) (.memory ⟨⟨"D", 1⟩, .int16⟩))]⟩]

/-- A controller in which another input is ON, and in which the guard and the preset are stored
although they are OFF and 0. -/
def usedController : Controller where
  image := ((({} : Image).setBit ⟨.input, ⟨"X", 9⟩⟩ true).setBit
    ⟨.contact, ⟨"M", 0⟩⟩ false).setWord ⟨.memory, ⟨"D", 0⟩⟩ 0
  scanCount := 7

theorem follow_agreeOn_pulseUnit :
    ¬ ({} : Image).AgreeAt usedController.image (.bit ⟨.input, ⟨"X", 9⟩⟩) ∧
    ∃ s, (Source.unit pulseUnit).compile = .ok s ∧
      Image.AgreeOn ((Source.unit pulseUnit).reads ++ (Source.unit pulseUnit).writes)
        (({} : Controller).follow s
          [.setValue (.memory ⟨⟨"D", 0⟩, .int16⟩) 3, .setInput ⟨"X", 0⟩ true, .scan]).image
        (usedController.follow s
          [.setInput ⟨"X", 9⟩ false, .setValue (.memory ⟨⟨"D", 0⟩, .int16⟩) 3,
            .setInput ⟨"X", 0⟩ true, .setBit (.contact (.relay ⟨"Y", 5⟩) true) true,
            .scan]).image :=
  ⟨by decide, Source.follow_agreeOn (.unit pulseUnit) (by decide) (by decide)⟩

end Rung
