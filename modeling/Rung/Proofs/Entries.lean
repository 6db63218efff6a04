import Rung.Proofs.Agreement
import Rung.Proofs.Noted

/-!
# What a scan enters into the image

Whatever is done to a target comes down to entries: a bit is replaced, a word, or one digit of a
memory word. Which entries are made depends on what is read; what they do does not. So a circuit is
known by its entries, as long as nothing changes that it reads.

* `Entry`, `Entry.cell`, `Image.enter`: a replacement in the image;
* `Image.sameAt_enter`, `Image.SameAt.enter`: entries, cell by cell;
* `Image.entries`, `Image.apply_eq_foldl_enter`: an effect makes its entries and nothing else;
* `Effect.carries`: the cells that an output counts on from;
* `Image.AgreeOn.entries`: the entries of an effect depend on what it reads;
* `Action.entries`, `Circuit.entries`, **`Circuit.scan_eq_foldl_enter`**, **`Circuit.entries_congr`**:
  the same for circuits.
-/

namespace Rung

/-! ## Entries -/

/-- A replacement in the image: of a bit, of a word, or of one digit of a memory word. -/
inductive Entry where
  | bit (cell : BitCell) (state : Bool)
  | word (cell : WordCell) (value : Int64)
  | digit (memory : Tag) (index : Fin 64) (state : Bool)
  deriving DecidableEq

def Entry.cell : Entry → Cell
  | bit c _ => .bit c
  | word c _ => .word c
  | digit tag _ _ => .word ⟨.memory, tag⟩

namespace Image

def enter (img : Image) : Entry → Image
  | .bit c state => img.setBit c state
  | .word c value => img.setWord c value
  | .digit tag index state =>
    img.setWord ⟨.memory, tag⟩ (putBit (img.word ⟨.memory, tag⟩) index state)

variable {img img' : Image} {cell : Cell}

theorem ext_sameAt (h : ∀ cell, img.SameAt img' cell) : img = img' :=
  ext_cells (fun c => h (.bit c)) fun c => h (.word c)

theorem sameAt_enter (img : Image) {e : Entry} (h : cell ≠ e.cell) :
    (img.enter e).SameAt img cell := by
  cases e with
  | bit c state => exact img.sameAt_setBit state h
  | word c value => exact img.sameAt_setWord value h
  | digit tag index state => exact img.sameAt_setWord _ h

/-- An entry leaves the same in its cell wherever the same was read there. -/
theorem AgreeAt.sameAt_enter {e : Entry} (h : img.AgreeAt img' e.cell) :
    (img.enter e).SameAt (img'.enter e) e.cell := by
  cases e with
  | bit c state | word c value => simp [SameAt, Image.enter, Entry.cell]
  | digit tag index state =>
    have hword : img.word ⟨.memory, tag⟩ = img'.word ⟨.memory, tag⟩ := h
    simp [SameAt, Image.enter, Entry.cell, hword]

theorem SameAt.enter (h : img.SameAt img' cell) (e : Entry) :
    (img.enter e).SameAt (img'.enter e) cell := by
  by_cases hcell : cell = e.cell
  · subst hcell
    exact h.agreeAt.sameAt_enter
  · exact (img.sameAt_enter hcell).trans (h.trans (img'.sameAt_enter hcell).symm)

theorem AgreeAt.enter (h : img.AgreeAt img' cell) (e : Entry) :
    (img.enter e).AgreeAt (img'.enter e) cell := by
  by_cases hcell : cell = e.cell
  · subst hcell
    exact h.sameAt_enter.agreeAt
  · have hleft := (img.sameAt_enter hcell).agreeAt
    have hright := (img'.sameAt_enter hcell).symm.agreeAt
    exact hleft.trans (h.trans hright)

theorem sameAt_foldl_enter (img : Image) {es : List Entry} (h : ∀ e ∈ es, cell ≠ e.cell) :
    (es.foldl enter img).SameAt img cell := by
  induction es generalizing img with
  | nil => exact SameAt.refl img cell
  | cons e es ih =>
    rw [List.forall_mem_cons] at h
    exact (ih (img.enter e) h.2).trans (img.sameAt_enter h.1)

theorem SameAt.foldl_enter (h : img.SameAt img' cell) (es : List Entry) :
    (es.foldl Image.enter img).SameAt (es.foldl Image.enter img') cell := by
  induction es generalizing img img' with
  | nil => exact h
  | cons e es ih => exact ih (h.enter e)

theorem AgreeOn.foldl_enter {cells : List Cell} (h : AgreeOn cells img img') (es : List Entry) :
    AgreeOn cells (es.foldl Image.enter img) (es.foldl Image.enter img') := by
  induction es generalizing img img' with
  | nil => exact h
  | cons e es ih => exact ih fun cell hcell => (h cell hcell).enter e

end Image

/-! ## The entries of an effect -/

/-- The entries that write a bit. There is none for a digit past the 64 of a word. -/
def Point.entries (state : Bool) : Point → List Entry
  | input tag => [.bit ⟨.input, tag⟩ state]
  | contact tag => [.bit ⟨.contact, tag⟩ state]
  | memoryBit tag index => if h : index < 64 then [.digit tag ⟨index, h⟩ state] else []

namespace Target

def entries (value : Int64) : Target → List Entry
  | bit point => point.entries (value != 0)
  | memory tag => [.word ⟨.memory, tag⟩ value]
  | timer tag _ => [.word ⟨.timer, tag⟩ value]
  | counter tag _ => [.word ⟨.counter, tag⟩ value]

/-- The entry that keeps what drove a counter. -/
def coilEntries (on : Bool) : Target → List Entry
  | counter tag _ => [.bit ⟨.coil, tag⟩ on]
  | bit _ | memory _ | timer _ _ => []

end Target

namespace Image

def driven (img : Image) (on : Bool) : Target → Int64
  | .bit _ | .memory _ => if on then 1 else 0
  | .timer tag preset =>
    if on then advance (img.word ⟨.timer, tag⟩) (img.readValue preset) else 0
  | .counter tag preset =>
    if on && !img.bit ⟨.coil, tag⟩ then
      advance (img.word ⟨.counter, tag⟩) (img.readValue preset)
    else img.word ⟨.counter, tag⟩

def latched (img : Image) : Target → Int64
  | .bit _ | .memory _ => 1
  | .timer _ preset | .counter _ preset => img.readValue preset

def entries (img : Image) (effect : Effect) (target : Target) (on : Bool) : List Entry :=
  match effect with
  | .output => target.coilEntries on ++ target.entries (img.driven on target)
  | .set => if on then target.entries (img.latched target) else []
  | .reset => if on then target.entries 0 else []
  | .write value => if on then target.entries (img.readValue value) else []

theorem writePoint_eq_foldl_enter (img : Image) (point : Point) (state : Bool) :
    img.writePoint point state = (point.entries state).foldl enter img := by
  cases point with
  | input tag | contact tag => rfl
  | memoryBit tag index =>
    rw [writePoint, Point.entries]
    split_ifs <;> rfl

theorem store_eq_foldl_enter (img : Image) (value : Int64) (t : Target) :
    img.store value t = (t.entries value).foldl enter img := by
  cases t with
  | bit point => exact img.writePoint_eq_foldl_enter point _
  | memory tag | timer tag preset | counter tag preset => rfl

theorem latch_eq_store (img : Image) (t : Target) : img.latch t = img.store (img.latched t) t := by
  cases t <;> rfl

theorem drive_eq_foldl_enter (img : Image) (t : Target) (on : Bool) :
    img.drive t on = (t.coilEntries on ++ t.entries (img.driven on t)).foldl enter img := by
  cases t with
  | bit point =>
    have hstate : ((if on then 1 else 0 : Int64) != 0) = on := by cases on <;> rfl
    rw [drive, writePoint_eq_foldl_enter, Target.coilEntries, Target.entries, driven, hstate,
      List.nil_append]
  | memory tag | timer tag preset | counter tag preset => rfl

/-- **An effect makes its entries** and does nothing else. -/
theorem apply_eq_foldl_enter (img : Image) (effect : Effect) (t : Target) (on : Bool) :
    img.apply effect t on = (img.entries effect t on).foldl enter img := by
  cases effect with
  | output => exact img.drive_eq_foldl_enter t on
  | set =>
    cases on with
    | false => rfl
    | true => exact (img.latch_eq_store t).trans (img.store_eq_foldl_enter _ t)
  | reset | write value =>
    cases on with
    | false => rfl
    | true => exact img.store_eq_foldl_enter _ t

end Image

theorem Point.cell_of_mem_entries {point : Point} {state : Bool} {e : Entry}
    (h : e ∈ point.entries state) : e.cell = point.cell := by
  cases point with
  | input tag | contact tag =>
    obtain rfl := List.mem_singleton.mp h
    rfl
  | memoryBit tag index =>
    rw [entries] at h
    split_ifs at h
    · obtain rfl := List.mem_singleton.mp h
      rfl
    · exact absurd h List.not_mem_nil

theorem Target.cell_of_mem_entries {t : Target} {value : Int64} {e : Entry}
    (h : e ∈ t.entries value) : e.cell = t.cell := by
  cases t with
  | bit point => exact Point.cell_of_mem_entries h
  | memory tag | timer tag preset | counter tag preset =>
    obtain rfl := List.mem_singleton.mp h
    rfl

/-- **Entries are made in the cells of the target.** -/
theorem Image.cell_mem_storage_of_mem_entries {img : Image} {effect : Effect} {t : Target}
    {on : Bool} {e : Entry} (h : e ∈ img.entries effect t on) : e.cell ∈ t.storage := by
  have hown : ∀ {value}, e ∈ t.entries value → e.cell ∈ t.storage := fun hmem => by
    rw [Target.cell_of_mem_entries hmem]
    exact t.cell_mem_storage
  cases effect with
  | output =>
    rcases List.mem_append.mp h with hcoil | hmem
    · cases t with
      | counter tag preset =>
        obtain rfl := List.mem_singleton.mp hcoil
        exact List.mem_cons_of_mem _ List.mem_cons_self
      | bit _ | memory _ | timer _ _ => exact absurd hcoil List.not_mem_nil
    · exact hown hmem
  | set | reset | write value =>
    cases on with
    | false => exact absurd h List.not_mem_nil
    | true => exact hown h

/-! ## What the entries of an effect depend on -/

/-- The cells that an effect counts on from: an output does so from the state of a timer or
counter. -/
def Effect.carries : Effect → Target → List Cell
  | output, .timer tag preset => (Target.timer tag preset).storage
  | output, .counter tag preset => (Target.counter tag preset).storage
  | output, .bit _ | output, .memory _ => []
  | set, _ | reset, _ | write _, _ => []

theorem Effect.carries_subset_storage (effect : Effect) (t : Target) :
    effect.carries t ⊆ t.storage := by
  cases effect with
  | output =>
    cases t with
    | bit _ | memory _ => exact List.nil_subset _
    | timer _ _ | counter _ _ => exact List.Subset.refl _
  | set | reset | write value => exact List.nil_subset _

namespace Image.AgreeOn

variable {img img' : Image} {cells : List Cell}

theorem driven (h : AgreeOn cells img img') {t : Target} (hp : t.presets ⊆ cells)
    (hc : Effect.output.carries t ⊆ cells) (on : Bool) : img.driven on t = img'.driven on t := by
  cases t with
  | bit _ | memory _ => rfl
  | timer tag preset =>
    have hcurrent : img.word ⟨.timer, tag⟩ = img'.word ⟨.timer, tag⟩ := h _ (hc List.mem_cons_self)
    rw [Image.driven, Image.driven, hcurrent, h.readValue hp]
  | counter tag preset =>
    have hcurrent : img.word ⟨.counter, tag⟩ = img'.word ⟨.counter, tag⟩ :=
      h _ (hc List.mem_cons_self)
    have hcoil : img.bit ⟨.coil, tag⟩ = img'.bit ⟨.coil, tag⟩ :=
      h _ (hc (List.mem_cons_of_mem _ List.mem_cons_self))
    rw [Image.driven, Image.driven, hcurrent, hcoil, h.readValue hp]

theorem latched (h : AgreeOn cells img img') {t : Target} (hp : t.presets ⊆ cells) :
    img.latched t = img'.latched t := by
  cases t with
  | bit _ | memory _ => rfl
  | timer tag preset | counter tag preset => exact h.readValue hp

/-- **The entries of an effect depend on what it reads**: the preset of its target, the value that it
moves and the state that it counts on from. -/
theorem entries (h : AgreeOn cells img img') {effect : Effect} {t : Target}
    (hp : t.presets ⊆ cells) (hv : effect.sources ⊆ cells) (hc : effect.carries t ⊆ cells)
    (on : Bool) : img.entries effect t on = img'.entries effect t on := by
  cases effect with
  | output => rw [Image.entries, Image.entries, h.driven hp hc]
  | set => rw [Image.entries, Image.entries, h.latched hp]
  | reset => rfl
  | write value => rw [Image.entries, Image.entries, h.readValue hv]

theorem permits (h : AgreeOn cells img img') {a : Action} (hr : a.reads ⊆ cells) :
    a.permits img = a.permits img' := by
  induction a with
  | drive how target => rfl
  | interlocked guard action ih =>
    obtain ⟨hguard, haction⟩ := List.append_subset.mp hr
    rw [Action.permits, Action.permits, h.eval hguard, ih haction]

end Image.AgreeOn

/-! ## The entries of circuits -/

namespace Action

def carries (a : Action) : List Cell := a.how.effect.carries a.target.target

def entries (value : Bool) (img : Image) (a : Action) : List Entry :=
  img.entries a.how.effect a.target.target (value && a.permits img)

theorem perform_eq_foldl_enter (value : Bool) (img : Image) (a : Action) :
    a.perform img value = (a.entries value img).foldl Image.enter img := by
  rw [perform_eq_apply, Image.apply_eq_foldl_enter, entries]

theorem carries_subset_writes (a : Action) : a.carries ⊆ a.writes := by
  rw [writes, ← Output.storage_target]
  exact Effect.carries_subset_storage _ _

theorem sources_append_presets_subset_reads (a : Action) :
    a.how.sources ++ a.target.presets ⊆ a.reads := by
  induction a with
  | drive how target => exact List.Subset.refl _
  | interlocked guard action ih => exact List.subset_append_of_subset_right guard.reads ih

theorem cell_mem_writes_of_mem_entries {value : Bool} {img : Image} {a : Action} {e : Entry}
    (h : e ∈ a.entries value img) : e.cell ∈ a.writes := by
  rw [writes, ← Output.storage_target]
  exact Image.cell_mem_storage_of_mem_entries h

theorem entries_congr {cells : List Cell} {img img' : Image} (h : Image.AgreeOn cells img img')
    {a : Action} (hr : a.reads ⊆ cells) (hc : a.carries ⊆ cells) (value : Bool) :
    a.entries value img = a.entries value img' := by
  have hread := List.Subset.trans a.sources_append_presets_subset_reads hr
  obtain ⟨hsources, hpresets⟩ := List.append_subset.mp hread
  rw [entries, entries, h.permits hr]
  exact h.entries (by simpa using hpresets) (by simpa using hsources) hc _

end Action

section Steps

variable {α : Type} {step : Image → α → Image} {entries : Image → α → List Entry}

theorem foldl_eq_foldl_enter (hstep : ∀ img a, step img a = (entries img a).foldl Image.enter img)
    (img : Image) (as : List α) :
    as.foldl step img = (noted step entries img as).foldl Image.enter img :=
  view_foldl id (fun a _ img' => hstep img' a) img

/-- Steps that each make their entries, and the same ones from images that agree on some cells, make
the same entries all along from two such images. -/
theorem noted_entries_congr (hstep : ∀ img a, step img a = (entries img a).foldl Image.enter img)
    {cells : List Cell} {as : List α}
    (hentries : ∀ a ∈ as, ∀ img img', Image.AgreeOn cells img img' →
      entries img a = entries img' a)
    {img img' : Image} (h : Image.AgreeOn cells img img') :
    noted step entries img as = noted step entries img' as := by
  refine noted_congr hentries (fun a ha img img' himg => ?_) h
  rw [hstep, hstep, hentries a ha img img' himg]
  exact himg.foldl_enter _

end Steps

namespace Circuit

def entries (img : Image) (c : Circuit) : List Entry :=
  let value := c.condition.eval img
  noted (fun img a => a.perform img value) (Action.entries value) img c.actions

/-- **A circuit makes its entries** and does nothing else. -/
theorem scan_eq_foldl_enter (img : Image) (c : Circuit) :
    c.scan img = (c.entries img).foldl Image.enter img :=
  foldl_eq_foldl_enter (Action.perform_eq_foldl_enter _) img c.actions

theorem cell_mem_writes_of_mem_entries {img : Image} {c : Circuit} {e : Entry}
    (h : e ∈ c.entries img) : e.cell ∈ c.writes := by
  obtain ⟨before, a, after, hactions, he⟩ := exists_of_mem_noted h
  have ha : a ∈ c.actions := by
    rw [hactions]
    exact List.mem_append_right before List.mem_cons_self
  exact List.mem_flatMap.mpr ⟨a, ha, Action.cell_mem_writes_of_mem_entries he⟩

theorem sameAt_scan (img : Image) {c : Circuit} {cell : Cell} (h : cell ∉ c.writes) :
    (c.scan img).SameAt img cell := by
  rw [scan_eq_foldl_enter]
  refine img.sameAt_foldl_enter fun e he hcell => h ?_
  rw [hcell]
  exact cell_mem_writes_of_mem_entries he

/-- **The entries of a circuit depend on what it reads** and on the state that it counts on from. -/
theorem entries_congr {cells : List Cell} {c : Circuit} (hr : c.reads ⊆ cells)
    (hc : ∀ a ∈ c.actions, a.carries ⊆ cells) {img img' : Image}
    (h : Image.AgreeOn cells img img') : c.entries img = c.entries img' := by
  obtain ⟨hcondition, hactions⟩ := List.append_subset.mp hr
  rw [entries, entries, h.eval hcondition]
  refine noted_entries_congr (Action.perform_eq_foldl_enter _) (fun a ha img img' himg => ?_) h
  have hreads : a.reads ⊆ cells := fun cell hcell =>
    hactions (List.mem_flatMap.mpr ⟨a, ha, hcell⟩)
  exact Action.entries_congr himg hreads (hc a ha) _

end Circuit

end Rung
