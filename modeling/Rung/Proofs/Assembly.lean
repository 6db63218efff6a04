import Mathlib.Data.List.Induction
import Rung.Proofs.Compilation

/-!
# A program is assembled from its units

Units are compiled one after another into one sequence. Each unit contributes what it compiles to by
itself: its commands, its blocks behind the commands before them and under the name it was added
with, and its depths. Which unit stands under a name is decided by the first call that added one, so
the order of the other calls leaves no trace.

* `Block.place`, `Sequence.append`: a compiled unit appended to a sequence;
* `Sequence.addCircuits_append`, `Sequence.addUnits_eq_foldl`: compiling behind other code;
* `Program.ofHistory`, `Program.Accepted`, `Program.unit?_ofHistory`: a history of calls;
* **`Program.compile_ofHistory`**: what a history compiles to.
-/

namespace Rung

/-! ## Appending compiled units -/

/-- A block behind some commands, under the name of a unit. -/
def Block.place (name : String) (offset : Nat) (b : Block) : Block where
  unit := name
  circuit := b.circuit
  start := offset + b.start
  stop := offset + b.stop

/-- The blocks of compiled units, each unit behind those before it. -/
def Block.placeAll (offset : Nat) : List (String × Sequence) → List Block
  | [] => []
  | (name, t) :: parts =>
    t.blocks.map (place name offset) ++ placeAll (offset + t.commands.length) parts

theorem LogicUnit.compile_eq_addCircuits (u : LogicUnit) :
    u.compile = Sequence.addCircuits {} u.name 0 u.circuits := by
  rw [compile, Sequence.addUnits]
  cases Sequence.addCircuits {} u.name 0 u.circuits <;> rfl

theorem Depth.max_assoc (a b c : Depth) : (a.max b).max c = a.max (b.max c) :=
  congrArg₂ Depth.mk (Nat.max_assoc _ _ _) (Nat.max_assoc _ _ _)

namespace Sequence

def append (s : Sequence) (name : String) (t : Sequence) : Sequence where
  commands := s.commands ++ t.commands
  blocks := s.blocks ++ t.blocks.map (Block.place name s.commands.length)
  depth := s.depth.max t.depth

theorem append_empty (s : Sequence) (name : String) : s.append name {} = s := by
  simp [append, Depth.max]

theorem append_addBlock (s t : Sequence) (name name' : String) (index : Nat) (peak : Depth)
    (commands : List Command) :
    ((s.append name t).recordDepth peak).addBlock name index commands =
      s.append name ((t.recordDepth peak).addBlock name' index commands) := by
  simp [append, addBlock, recordDepth, Block.place, Depth.max_assoc]

/-- **Circuits compile behind other code as they do alone**, and the name they compile under shows
in their blocks only. -/
theorem addCircuits_append (s : Sequence) (name name' : String) (cs : List Circuit) (t : Sequence)
    (index : Nat) :
    (s.append name t).addCircuits name index cs =
      (t.addCircuits name' index cs).map (s.append name) := by
  induction cs generalizing t index with
  | nil => rfl
  | cons c cs ih => rw [addCircuits_cons, addCircuits_cons, append_addBlock s t name name', ih]

theorem addUnits_eq_foldl {seq : LogicUnit → Sequence}
    (h : ∀ u : LogicUnit, u.compile = .ok (seq u)) (units : List (String × LogicUnit))
    (s : Sequence) :
    s.addUnits units =
      .ok ((units.map fun nu => (nu.1, seq nu.2)).foldl (fun s nt => s.append nt.1 nt.2) s) := by
  induction units generalizing s with
  | nil => rfl
  | cons nu units ih =>
    obtain ⟨name, u⟩ := nu
    have hbehind := addCircuits_append s name u.name u.circuits {} 0
    rw [append_empty, ← u.compile_eq_addCircuits, h u] at hbehind
    rw [addUnits, hbehind]
    exact ih (s.append name (seq u))

theorem foldl_append (parts : List (String × Sequence)) (s : Sequence) :
    parts.foldl (fun s nt => s.append nt.1 nt.2) s =
      { commands := s.commands ++ parts.flatMap (·.2.commands)
        blocks := s.blocks ++ Block.placeAll s.commands.length parts
        depth := ⟨(parts.map (·.2.depth.primary)).foldl max s.depth.primary,
          (parts.map (·.2.depth.secondary)).foldl max s.depth.secondary⟩ } := by
  induction parts generalizing s with
  | nil => simp [Block.placeAll]
  | cons nt parts ih =>
    obtain ⟨name, t⟩ := nt
    rw [List.foldl_cons, ih]
    simp [append, Block.placeAll, Depth.max]

theorem circuit_addCircuits (unit : String) (cs : List Circuit) {s t : Sequence} {index : Nat}
    (h : s.addCircuits unit index cs = .ok t) :
    t.blocks.map Block.circuit = s.blocks.map Block.circuit ++ List.range' index cs.length := by
  induction cs generalizing s index with
  | nil =>
    cases h
    simp
  | cons c cs ih =>
    rw [addCircuits_cons] at h
    rw [ih h, List.length_cons, List.range'_succ]
    simp [addBlock, recordDepth]

end Sequence

theorem LogicUnit.exists_compile (u : LogicUnit) : ∃ t, u.compile = .ok t := by
  obtain ⟨t, ht, -⟩ := exists_addUnits_execute [(u.name, u)]
  exact ⟨t, ht⟩

theorem LogicUnit.circuit_compile {u : LogicUnit} {t : Sequence} (h : u.compile = .ok t) :
    t.blocks.map Block.circuit = List.range u.circuits.length := by
  rw [compile_eq_addCircuits] at h
  rw [Sequence.circuit_addCircuits u.name u.circuits h, List.range_eq_range']
  rfl

/-! ## Histories -/

namespace Program

def offer (p : Program) (entry : String × LogicUnit) : Program := (p.add entry.1 entry.2).1

def ofHistory (title : String) (history : List (String × LogicUnit)) : Program :=
  history.foldl offer { name := title }

/-- Some call of a history has added a unit under a name. -/
def Accepted (title : String) (history : List (String × LogicUnit)) (name : String) : Prop :=
  ∃ earlier u later, history = earlier ++ (name, u) :: later ∧
    ((ofHistory title earlier).add name u).2 = none

theorem add_of_contains {p : Program} {name : String} (h : p.units.contains name = true)
    (u : LogicUnit) : p.add name u = (p, some (p.duplicate name)) := by
  rw [add, if_pos h]

theorem add_of_not_contains {p : Program} {name : String} (h : ¬ p.units.contains name = true)
    (u : LogicUnit) : p.add name u = ({ p with units := p.units.insert name u }, none) := by
  rw [add, if_neg h]

theorem exists_add_refused_iff (p : Program) (name : String) (u : LogicUnit) :
    (∃ d, (p.add name u).2 = some d ∧ d.problem = .unitNameDuplicated) ↔
      p.units.contains name = true := by
  constructor
  · rintro ⟨d, hd, -⟩
    by_contra h
    rw [add_of_not_contains h] at hd
    cases hd
  · intro h
    exact ⟨_, by rw [add_of_contains h u], rfl⟩

theorem add_accepted_iff (p : Program) (name : String) (u : LogicUnit) :
    (p.add name u).2 = none ↔ ¬ p.units.contains name = true := by
  by_cases h : p.units.contains name = true
  · simp [add_of_contains h, h]
  · simp [add_of_not_contains h, h]

theorem add_of_refused {p : Program} {name : String} {u : LogicUnit} {d : Diagnostic}
    (h : (p.add name u).2 = some d) : (p.add name u).1 = p := by
  by_cases hname : p.units.contains name = true
  · rw [add_of_contains hname]
  · rw [add_of_not_contains hname] at h
    cases h

theorem offer_of_contains {p : Program} {name : String} (h : p.units.contains name = true)
    (u : LogicUnit) : p.offer (name, u) = p := by
  rw [offer, add_of_contains h]

theorem offer_of_not_contains {p : Program} {name : String} (h : ¬ p.units.contains name = true)
    (u : LogicUnit) : p.offer (name, u) = { p with units := p.units.insert name u } := by
  rw [offer, add_of_not_contains h]

theorem contains_units (p : Program) (name : String) :
    p.units.contains name = (p.unit? name).isSome :=
  Std.ExtTreeMap.contains_eq_isSome_getElem?

theorem unit?_offer (p : Program) (name' : String) (u : LogicUnit) (name : String) :
    (p.offer (name', u)).unit? name =
      (p.unit? name).or (if name = name' then some u else none) := by
  by_cases h : p.units.contains name' = true
  · rw [offer_of_contains h]
    split_ifs with hname
    · subst hname
      rw [contains_units, Option.isSome_iff_exists] at h
      obtain ⟨v, hv⟩ := h
      rw [hv, Option.some_or]
    · rw [Option.or_none]
  · rw [offer_of_not_contains h, unit?, Std.ExtTreeMap.getElem?_insert]
    rw [contains_units, Option.not_isSome_iff_eq_none] at h
    by_cases hname : name = name'
    · subst hname
      simp [h]
    · simp [unit?, hname, Ne.symm hname]

theorem unit?_foldl_offer (history : List (String × LogicUnit)) (p : Program) (name : String) :
    (history.foldl offer p).unit? name = (p.unit? name).or (history.lookup name) := by
  induction history generalizing p with
  | nil => rw [List.foldl_nil, List.lookup_nil, Option.or_none]
  | cons entry history ih =>
    obtain ⟨name', u⟩ := entry
    rw [List.foldl_cons, ih, unit?_offer, Option.or_assoc, List.lookup_cons]
    by_cases hname : name = name'
    · simp [hname]
    · rw [if_neg hname, Option.none_or, beq_false_of_ne hname]

/-- **The first unit under a name stays.** -/
theorem unit?_ofHistory (title : String) (history : List (String × LogicUnit)) (name : String) :
    (ofHistory title history).unit? name = history.lookup name := by
  rw [ofHistory, unit?_foldl_offer, unit?, Std.ExtTreeMap.getElem?_empty, Option.none_or]

theorem ofHistory_concat (title : String) (history : List (String × LogicUnit)) (name : String)
    (u : LogicUnit) :
    ofHistory title (history ++ [(name, u)]) = (ofHistory title history).offer (name, u) := by
  rw [ofHistory, List.foldl_append, List.foldl_cons, List.foldl_nil, ofHistory]

theorem contains_ofHistory_iff {title : String} {history : List (String × LogicUnit)}
    {name : String} :
    (ofHistory title history).units.contains name = true ↔ Accepted title history name := by
  constructor
  · induction history using List.reverseRecOn with
    | nil =>
      intro h
      simp [ofHistory] at h
    | append_singleton history entry ih =>
      obtain ⟨name', u⟩ := entry
      intro h
      by_cases hbefore : (ofHistory title history).units.contains name = true
      · obtain ⟨earlier, v, later, hsplit, hadd⟩ := ih hbefore
        exact ⟨earlier, v, later ++ [(name', u)], by rw [hsplit]; simp, hadd⟩
      · -- the name was free, so the last call has filled it
        have hfree : (ofHistory title history).unit? name = none := by
          rwa [contains_units, Option.not_isSome_iff_eq_none] at hbefore
        rw [contains_units, ofHistory_concat, unit?_offer, hfree, Option.none_or] at h
        obtain rfl : name = name' := by
          by_contra hne
          simp [hne] at h
        exact ⟨history, u, [], rfl, (add_accepted_iff _ name u).mpr hbefore⟩
  · rintro ⟨earlier, u, later, rfl, -⟩
    rw [contains_units, unit?_ofHistory, List.lookup_append, List.lookup_cons_self]
    cases earlier.lookup name <;> rfl

theorem mem_unitList_ofHistory {title : String} {history : List (String × LogicUnit)}
    {name : String} {u : LogicUnit} :
    (name, u) ∈ (ofHistory title history).unitList ↔ history.lookup name = some u := by
  rw [← unit?_ofHistory title history name]
  exact Std.ExtTreeMap.mem_toList_iff_getElem?_eq_some

theorem names_unitList_ofHistory {title : String} {history : List (String × LogicUnit)}
    {name : String} :
    name ∈ (ofHistory title history).unitList.map Prod.fst ↔ name ∈ history.map Prod.fst := by
  have hlookup : (∃ u, history.lookup name = some u) ↔ ∃ u, (name, u) ∈ history := by
    rw [← Option.isSome_iff_exists, List.lookup_isSome_iff]
    simp
  simp only [List.mem_map, Prod.exists, exists_and_right, exists_eq_right, mem_unitList_ofHistory,
    hlookup]

theorem units_ofHistory_congr {title title' : String} {history history' : List (String × LogicUnit)}
    (h : ∀ name, history.lookup name = history'.lookup name) :
    (ofHistory title history).units = (ofHistory title' history').units := by
  refine Std.ExtTreeMap.ext_getElem? fun name => ?_
  have hunit := unit?_ofHistory title history name
  rw [h name, ← unit?_ofHistory title' history' name] at hunit
  exact hunit

/-- **A program is assembled from the first unit under each name**, in ascending order of name and
from what the units compile to by themselves. Other calls are refused and change nothing. -/
theorem compile_ofHistory (title : String) :
    (∀ (before : List (String × LogicUnit)) (name : String) (u : LogicUnit),
      ((∃ d, ((ofHistory title before).add name u).2 = some d ∧
        d.problem = .unitNameDuplicated) ↔ Accepted title before name) ∧
      (((ofHistory title before).add name u).2 = none ↔ ¬ Accepted title before name) ∧
      (∀ d, ((ofHistory title before).add name u).2 = some d →
        ((ofHistory title before).add name u).1 = ofHistory title before) ∧
      (Accepted title before name →
        ofHistory title (before ++ [(name, u)]) = ofHistory title before)) ∧
    (∀ history, ∃ (parts : List (String × Sequence)) (s : Sequence),
      (parts.map Prod.fst).Pairwise (· < ·) ∧
      (∀ name, name ∈ parts.map Prod.fst ↔ name ∈ history.map Prod.fst) ∧
      (∀ name t, (name, t) ∈ parts → ∃ u, history.lookup name = some u ∧ u.compile = .ok t ∧
        t.blocks.map Block.circuit = List.range u.circuits.length) ∧
      (ofHistory title history).compile = .ok s ∧
      s.commands = parts.flatMap (·.2.commands) ∧
      s.blocks = Block.placeAll 0 parts ∧
      s.depth.primary = (parts.map (·.2.depth.primary)).foldl max 0 ∧
      s.depth.secondary = (parts.map (·.2.depth.secondary)).foldl max 0) ∧
    ∀ title' history history', (∀ name, history.lookup name = history'.lookup name) →
      (ofHistory title history).compile = (ofHistory title' history').compile := by
  refine ⟨fun before name u => ?_, fun history => ?_, fun title' history history' h => ?_⟩
  · rw [← contains_ofHistory_iff]
    refine ⟨exists_add_refused_iff _ name u, add_accepted_iff _ name u, fun d hd => ?_,
      fun h => ?_⟩
    · exact add_of_refused hd
    · rw [ofHistory_concat, offer_of_contains h]
  · choose seq hseq using LogicUnit.exists_compile
    have hcompile := Sequence.addUnits_eq_foldl hseq (ofHistory title history).unitList {}
    rw [Sequence.foldl_append] at hcompile
    refine ⟨_, _, ?_, fun name => ?_, fun name t ht => ?_, hcompile, List.nil_append _,
      List.nil_append _, rfl, rfl⟩
    · rw [List.map_map, List.pairwise_map]
      exact (ofHistory title history).unitList_ascending
    · rw [List.map_map]
      exact names_unitList_ofHistory
    · obtain ⟨⟨_, u⟩, hu, hpart⟩ := List.mem_map.1 ht
      cases hpart
      exact ⟨u, mem_unitList_ofHistory.1 hu, hseq u, LogicUnit.circuit_compile (hseq u)⟩
  · rw [compile, compile, unitList, unitList, units_ofHistory_congr h]

end Program

end Rung
