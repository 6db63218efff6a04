import Rung.Proofs.Noninterference
import Rung.Proofs.Noted

/-!
# The turns of a run

Within a scan every action has its turn: it finds an image, and a gate made of the value that its
circuit's condition had when the circuit was reached and of its interlocks as they are now. A run is
known by its turns. Whatever is read off the image can be followed turn by turn, over all scans and
whatever is forced between them.

* `Turn`, `Circuit.turns`, `Source.turns`, `Controller.turns`: the turns of a circuit, of a scan and
  of a run, in the order they are taken;
* `Controller.turnsOn`: the turns of a run that drive a cell;
* `Controller.map_action_turns`, `Controller.countP_turns`: every scan gives every action one turn;
* **`Controller.view_follow`**: what is read off a cell after a run is told by the turns on it.
-/

namespace Rung

/-! ## Turns -/

/-- The turn of an action in a scan: the image it finds, and the gate that it is performed under. -/
structure Turn where
  action : Action
  image : Image
  gate : Bool
  deriving DecidableEq

def Turn.result (t : Turn) : Image :=
  t.image.apply t.action.how.effect t.action.target.target t.gate

def Action.drives (cell : Cell) (a : Action) : Bool := decide (cell ∈ a.target.storage)

theorem Turn.sameAt_result {t : Turn} {cell : Cell} (h : t.action.drives cell = false) :
    t.result.SameAt t.image cell := by
  refine t.image.sameAt_apply t.action.how.effect t.gate ?_
  rw [Output.storage_target]
  exact of_decide_eq_false h

/-- The turn of an action in a circuit whose condition has a given value. The gate is ON when that
value and all interlocks of the action are. -/
def Action.turn (value : Bool) (img : Image) (a : Action) : Turn where
  action := a
  image := img
  gate := value && a.permits img

theorem Action.result_turn (value : Bool) (img : Image) (a : Action) :
    (a.turn value img).result = a.perform img value :=
  (a.perform_eq_apply img value).symm

/-- The turns of a circuit. The value of its condition is the one on the image it finds. -/
def Circuit.turns (img : Image) (c : Circuit) : List Turn :=
  let value := c.condition.eval img
  noted (fun img a => a.perform img value) (fun img a => [a.turn value img]) img c.actions

def Source.turns (src : Source) (img : Image) : List Turn :=
  noted Circuit.scan Circuit.turns img src.circuits

def Event.turns (src : Source) (c : Controller) : Event → List Turn
  | scan => src.turns c.image
  | setInput _ _ | setBit _ _ | setValue _ _ => []

def Controller.turns (src : Source) (s : Sequence) (c : Controller) (events : List Event) :
    List Turn :=
  noted (react s) (Event.turns src) c events

/-- The turns of a run whose actions drive a cell. -/
def Controller.turnsOn (cell : Cell) (src : Source) (s : Sequence) (c : Controller)
    (events : List Event) : List Turn :=
  (c.turns src s events).filter fun t => t.action.drives cell

/-! ## Every scan gives every action one turn -/

theorem Circuit.map_action_turns (img : Image) (c : Circuit) :
    (c.turns img).map Turn.action = c.actions := by
  have hshown : (c.turns img).map Turn.action = c.actions.flatMap fun a => [a] :=
    map_noted (fun a => [a]) (fun _ _ => rfl) img c.actions
  rw [hshown, List.flatMap_singleton']

theorem Source.map_action_turns (src : Source) (img : Image) :
    (src.turns img).map Turn.action = src.actions :=
  map_noted Circuit.actions Circuit.map_action_turns img src.circuits

namespace Controller

variable {src : Source} {s : Sequence}

theorem map_action_turns (c : Controller) (events : List Event) :
    (c.turns src s events).map Turn.action =
      events.flatMap fun e => if e = .scan then src.actions else [] := by
  refine map_noted _ (fun c e => ?_) c events
  cases e with
  | scan => exact src.map_action_turns c.image
  | setInput _ _ | setBit _ _ | setValue _ _ => rfl

/-- The turns on a cell are those of the actions that drive it, scan by scan. -/
theorem map_action_turnsOn (cell : Cell) (c : Controller) (events : List Event) :
    (c.turnsOn cell src s events).map Turn.action =
      events.flatMap fun e =>
        if e = .scan then src.actions.filter (Action.drives cell) else [] := by
  calc (c.turnsOn cell src s events).map Turn.action
      = ((c.turns src s events).map Turn.action).filter (Action.drives cell) := by
        rw [List.filter_map]
        rfl
    _ = events.flatMap fun e =>
          (if e = .scan then src.actions else []).filter (Action.drives cell) := by
        rw [map_action_turns, List.filter_flatMap]
    _ = _ := by
        congr 1
        funext e
        split_ifs <;> rfl

theorem action_mem_of_mem_turns {c : Controller} {events : List Event} {t : Turn}
    (h : t ∈ c.turns src s events) : t.action ∈ src.actions := by
  have hmem : t.action ∈ (c.turns src s events).map Turn.action := List.mem_map_of_mem h
  rw [map_action_turns, List.mem_flatMap] at hmem
  obtain ⟨e, -, he⟩ := hmem
  split_ifs at he with hscan
  · exact he
  · exact absurd he List.not_mem_nil

theorem action_mem_of_mem_turnsOn {cell : Cell} {c : Controller} {events : List Event} {t : Turn}
    (h : t ∈ c.turnsOn cell src s events) :
    t.action ∈ src.actions ∧ t.action.drives cell = true := by
  obtain ⟨hturn, hdrives⟩ := List.mem_filter.mp h
  exact ⟨action_mem_of_mem_turns hturn, hdrives⟩

/-- The actions of some kind have as many turns in a run as there are of them, times the scans. -/
theorem countP_turns (p : Action → Bool) (c : Controller) (events : List Event) :
    (c.turns src s events).countP (fun t => p t.action) =
      events.count .scan * src.actions.countP p := by
  have hscans : (events.flatMap fun e => if e = .scan then src.actions else []).countP p =
      events.count .scan * src.actions.countP p := by
    induction events with
    | nil => simp
    | cons e events ih =>
      rw [List.flatMap_cons, List.countP_append, ih, List.count_cons]
      by_cases hscan : e = .scan
      · simp [hscan, Nat.add_mul, Nat.add_comm]
      · simp [hscan]
  calc (c.turns src s events).countP (fun t => p t.action)
      = ((c.turns src s events).map Turn.action).countP p := by
        rw [List.countP_map]
        rfl
    _ = events.count .scan * src.actions.countP p := by rw [map_action_turns, hscans]

theorem scanCount_follow (hrun : s.Realizes src) (events : List Event) (c : Controller) :
    (c.follow s events).scanCount = c.scanCount + events.count .scan := by
  induction events generalizing c with
  | nil => rfl
  | cons e events ih =>
    have hreact : (c.react s e).scanCount = c.scanCount + [e].count .scan := by
      cases e with
      | scan =>
        rw [react, hrun c]
        rfl
      | setInput input state => rfl
      | setBit b state => cases b <;> rfl
      | setValue w value => cases w <;> rfl
    rw [follow, List.foldl_cons, ← follow, ih, hreact, Nat.add_assoc, ← List.count_append]
    rfl

end Controller

/-! ## Following a view of the image -/

section View

variable {σ : Type} {view : Image → σ} {follow : σ → Turn → σ}

theorem Circuit.view_scan {c : Circuit}
    (h : ∀ t : Turn, t.action ∈ c.actions → view t.result = follow (view t.image) t)
    (img : Image) : view (c.scan img) = (c.turns img).foldl follow (view img) := by
  refine view_foldl view (fun a ha img' => ?_) img
  rw [← a.result_turn, h (a.turn (c.condition.eval img) img') ha]
  rfl

theorem Source.view_scan {src : Source}
    (h : ∀ t : Turn, t.action ∈ src.actions → view t.result = follow (view t.image) t)
    (img : Image) : view (src.scan img) = (src.turns img).foldl follow (view img) := by
  refine view_foldl view (fun c hc img' => ?_) img
  exact Circuit.view_scan (fun t ht => h t (List.mem_flatMap.mpr ⟨c, hc, ht⟩)) img'

variable (view follow) in
/-- **A view of the image is told by the turns on its cell**, one after another. -/
theorem Controller.view_follow {src : Source} {s : Sequence} (hrun : s.Realizes src)
    {cell : Cell}
    (hmoves : ∀ t : Turn, t.action ∈ src.actions → t.action.drives cell = true →
      view t.result = follow (view t.image) t)
    (hkeeps : ∀ t : Turn, t.action ∈ src.actions → t.action.drives cell = false →
      view t.result = view t.image)
    {events : List Event}
    (hforced : ∀ e ∈ events, e ≠ .scan → ∀ c : Controller,
      view (c.react s e).image = view c.image) (c : Controller) :
    view (c.follow s events).image =
      (c.turnsOn cell src s events).foldl follow (view c.image) := by
  have hturn : ∀ t : Turn, t.action ∈ src.actions → view t.result =
      if t.action.drives cell = true then follow (view t.image) t else view t.image := by
    intro t ht
    cases hdrives : t.action.drives cell with
    | true => exact hmoves t ht hdrives
    | false => exact hkeeps t ht hdrives
  rw [turnsOn, List.foldl_filter]
  refine view_foldl (fun c : Controller => view c.image) (fun e he c => ?_) c
  cases e with
  | scan =>
    rw [react, hrun c]
    exact Source.view_scan hturn c.image
  | setInput _ _ | setBit _ _ | setValue _ _ => exact hforced _ he (by simp) c

end View

end Rung
