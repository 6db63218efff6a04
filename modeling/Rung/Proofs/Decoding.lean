import Rung.Proofs.Canonical
import Rung.Proofs.Compilation

/-!
# Compiled circuits can be read back

A schematic is a circuit as the machine sees it, with references in place of devices. The decoder
runs the commands on stacks of trees instead of bits: a join extends the tree below it, a copied
value stands for the gate of an interlocked action, and what is applied is noted with the guards of
its gate. A junction's first child leaves no trace of its own in the code, so a join cannot tell a
partial junction from a finished one; in a built condition the two differ by their operator.

* `Tree`, `Deed`, `Schematic`, `Circuit.lower`;
* `Decoder`, `Decoder.step`, `Decoder.run`, `Schematic.decode`;
* `Condition.decode_code`, `Action.decode_code`, `Circuit.decode_code`;
* **`decode_compile`**: the decoder finds the schematic of a compiled circuit, so circuits with the
  same commands have the same schematic.
-/

namespace Rung

inductive Tree where
  | load (operand : Operand)
  | junction (op : Operator) (children : List Tree)
  deriving Repr

/-- What an action does, under its guards from the outermost to the innermost. -/
structure Deed where
  guards : List Tree
  effect : Effect
  target : Target
  deriving Repr

structure Schematic where
  condition : Tree
  deeds : List Deed
  deriving Repr

/-! ## Lowering -/

namespace Condition

mutual

/-- The condition over the operands that its bits load. -/
def lower : Condition → Tree
  | leaf b => .load b.operand
  | junction op first second rest => .junction op (first.lower :: second.lower :: lowerList rest)

def lowerList : List Condition → List Tree
  | [] => []
  | c :: cs => c.lower :: lowerList cs

end

end Condition

def Action.lower : Action → Deed
  | drive how target => ⟨[], how.effect, target.target⟩
  | interlocked guard action => { action.lower with guards := guard.lower :: action.lower.guards }

def Circuit.lower (c : Circuit) : Schematic := ⟨c.condition.lower, c.actions.map Action.lower⟩

/-! ## The decoder -/

/-- Joins one more child to a tree, which is a partial junction if it has the operator already. -/
def Tree.extend (op : Operator) (tree child : Tree) : Tree :=
  match tree with
  | load operand => junction op [load operand, child]
  | junction op' children =>
    if op' = op then junction op (children ++ [child])
    else junction op [junction op' children, child]

/-- What stands for a bit on the primary stack. -/
inductive Token where
  | value (tree : Tree)
  /-- A copy of the circuit's value, joined with guards. -/
  | gate (guards : List Tree)
  deriving Repr

def Token.guards : Token → List Tree
  | value _ => []
  | gate guards => guards

/-- A decoder at work: the two stacks, the actions so far and the last value that was dropped. -/
structure Decoder where
  primary : List Token := []
  secondary : List Tree := []
  deeds : List Deed := []
  dropped : Option Tree := none
  deriving Repr

namespace Decoder

/-- Reads one command; no compiled circuit has any other. -/
def step (d : Decoder) (c : Command) : Option Decoder :=
  match c, d with
  | .load operand, ⟨p, s, ds, k⟩ => some ⟨.value (.load operand) :: p, s, ds, k⟩
  | .stash, ⟨.value t :: p, s, ds, k⟩ => some ⟨p, t :: s, ds, k⟩
  | .joinStash op, ⟨.value t :: p, u :: s, ds, k⟩ => some ⟨.value (u.extend op t) :: p, s, ds, k⟩
  | .joinTop op, ⟨.value t :: .value u :: p, s, ds, k⟩ =>
    some ⟨.value (u.extend op t) :: p, s, ds, k⟩
  | .joinTop .and, ⟨.value t :: .gate gs :: p, s, ds, k⟩ => some ⟨.gate (gs ++ [t]) :: p, s, ds, k⟩
  | .duplicate, ⟨x :: p, s, ds, k⟩ => some ⟨.gate x.guards :: x :: p, s, ds, k⟩
  | .apply effect target, ⟨x :: p, s, ds, k⟩ =>
    some ⟨x :: p, s, ds ++ [⟨x.guards, effect, target⟩], k⟩
  | .pop, ⟨.gate _ :: p, s, ds, k⟩ => some ⟨p, s, ds, k⟩
  | .pop, ⟨.value t :: p, s, ds, _⟩ => some ⟨p, s, ds, some t⟩
  | _, _ => none

def run (d : Decoder) : List Command → Option Decoder
  | [] => some d
  | c :: cs =>
    match d.step c with
    | some d' => d'.run cs
    | none => none

end Decoder

def Schematic.decode (commands : List Command) : Option Schematic :=
  match ({} : Decoder).run commands with
  | some ⟨[], [], deeds, some condition⟩ => some ⟨condition, deeds⟩
  | _ => none

/-! ## Decoding what was compiled -/

theorem Tree.extend_junction (op : Operator) (children : List Tree) (t : Tree) :
    (junction op children).extend op t = junction op (children ++ [t]) := by
  rw [extend, if_pos rfl]

namespace Condition

/-- A finished child that has another operator starts a junction. -/
theorem extend_lower {op : Operator} {c : Condition} (h : c.operator? ≠ some op) (t : Tree) :
    c.lower.extend op t = .junction op [c.lower, t] := by
  cases c with
  | leaf b => rfl
  | junction op' first second rest =>
    rw [lower, Tree.extend, if_neg fun he => h (congrArg some he)]

section Decode

variable {ds : List Deed} {k : Option Tree}

theorem decode_joined {code : List Command} {w : Tree}
    (h : ∀ p s cs, Decoder.run ⟨p, s, ds, k⟩ (code ++ cs) =
      Decoder.run ⟨.value w :: p, s, ds, k⟩ cs)
    (op : Operator) (nested : Bool) (v : Tree) (p : List Token) (s : List Tree)
    (cs : List Command) :
    Decoder.run ⟨.value v :: p, s, ds, k⟩ (joined op nested code ++ cs) =
      Decoder.run ⟨.value (v.extend op w) :: p, s, ds, k⟩ cs := by
  cases nested with
  | false =>
    rw [joined, if_neg Bool.false_ne_true, List.append_assoc, h]
    cases op <;> rfl
  | true =>
    rw [joined, if_pos rfl, List.cons_append, List.append_assoc]
    change Decoder.run ⟨p, v :: s, ds, k⟩ (code ++ ([.joinStash op] ++ cs)) = _
    rw [h]
    rfl

mutual

/-- **Reading the code of a canonical condition puts its tree on the stack.** -/
theorem decode_code : ∀ (c : Condition), c.Canonical →
    ∀ (p : List Token) (s : List Tree) (cs : List Command),
      Decoder.run ⟨p, s, ds, k⟩ (c.code ++ cs) = Decoder.run ⟨.value c.lower :: p, s, ds, k⟩ cs
  | leaf b, _, p, s, cs => rfl
  | junction op first second rest, h, p, s, cs => by
    cases h with
    | junction flat children =>
      have hfirst := decode_code first (children first (by simp))
      have hsecond := decode_code second (children second (by simp))
      rw [code, List.append_assoc, hfirst, List.append_assoc, decode_joined hsecond,
        extend_lower (flat first (by simp)),
        decode_codeRest op rest fun c hc => children c (by simp [hc])]
      rfl

theorem decode_codeRest (op : Operator) : ∀ (ds' : List Condition), (∀ d ∈ ds', d.Canonical) →
    ∀ (ts : List Tree) (p : List Token) (s : List Tree) (cs : List Command),
      Decoder.run ⟨.value (.junction op ts) :: p, s, ds, k⟩ (codeRest op ds' ++ cs) =
        Decoder.run ⟨.value (.junction op (ts ++ lowerList ds')) :: p, s, ds, k⟩ cs
  | [], _, ts, p, s, cs => by rw [codeRest, lowerList, List.append_nil, List.nil_append]
  | d :: ds', h, ts, p, s, cs => by
    have hd := decode_code d (h d List.mem_cons_self)
    rw [codeRest, List.append_assoc, decode_joined hd, Tree.extend_junction,
      decode_codeRest op ds' fun c hc => h c (List.mem_cons_of_mem d hc), lowerList,
      List.append_assoc, List.singleton_append]

end

end Decode

end Condition

theorem Action.decode_code {k : Option Tree} {s : List Tree} (a : Action) (h : a.Built) (x : Token)
    (p : List Token) (ds : List Deed) (cs : List Command) :
    Decoder.run ⟨x :: p, s, ds, k⟩ (a.code ++ cs) =
      Decoder.run ⟨x :: p, s, ds ++ [{ a.lower with guards := x.guards ++ a.lower.guards }], k⟩
        cs := by
  induction a generalizing x p ds cs with
  | drive how target =>
    rw [lower, List.append_nil]
    rfl
  | interlocked guard action ih =>
    obtain ⟨hguard, haction⟩ := h
    rw [code, List.cons_append, List.append_assoc, List.cons_append, List.append_assoc]
    -- the copied token becomes a gate with one guard more, and is dropped after the inner action
    change Decoder.run ⟨.gate x.guards :: x :: p, s, ds, k⟩ (guard.code ++ _) = _
    rw [Condition.decode_code guard hguard.canonical]
    change Decoder.run ⟨.gate (x.guards ++ [guard.lower]) :: x :: p, s, ds, k⟩
      (action.code ++ _) = _
    rw [ih haction, lower, Token.guards, List.append_assoc, List.singleton_append]
    rfl

theorem Action.decode_flatMap_code {k : Option Tree} {s : List Tree} {t : Tree} (as : List Action)
    (h : ∀ a ∈ as, a.Built) (p : List Token) (ds : List Deed) (cs : List Command) :
    Decoder.run ⟨.value t :: p, s, ds, k⟩ (as.flatMap Action.code ++ cs) =
      Decoder.run ⟨.value t :: p, s, ds ++ as.map Action.lower, k⟩ cs := by
  induction as generalizing ds with
  | nil => rw [List.map_nil, List.append_nil, List.flatMap_nil, List.nil_append]
  | cons a as ih =>
    rw [List.flatMap_cons, List.append_assoc, decode_code a (h a List.mem_cons_self),
      ih fun b hb => h b (List.mem_cons_of_mem a hb), List.append_assoc, List.map_cons]
    rfl

/-- **The decoder finds the schematic of a built circuit.** -/
theorem Circuit.decode_code {c : Circuit} (h : c.Built) :
    Schematic.decode c.code = some c.lower := by
  have hrun : Decoder.run {} c.code =
      some ⟨[], [], c.actions.map Action.lower, some c.condition.lower⟩ := by
    rw [code, Condition.decode_code c.condition h.condition.canonical,
      Action.decode_flatMap_code c.actions h.actions]
    rfl
  rw [Schematic.decode, hrun]
  rfl

-- without flat junctions the code is ambiguous: the bracket around the first two leaves no trace
example (a b c : Bit) :
    (Condition.junction .and (.junction .and (.leaf a) (.leaf b) []) (.leaf c) []).code =
      (Condition.junction .and (.leaf a) (.leaf b) [.leaf c]).code := rfl

/-- **Compiled circuits can be read back**, so circuits with the same commands have the same
schematic. -/
theorem decode_compile {c d : Circuit} (hc : c.Built) (hd : d.Built) (place place' : Location) :
    (∃ commands, c.compile place = .ok commands ∧ Schematic.decode commands = some c.lower) ∧
      (c.compile place = d.compile place' → c.lower = d.lower) := by
  have hdecode := Circuit.decode_code hc
  refine ⟨⟨c.code, Circuit.compile_eq place c, hdecode⟩, fun h => ?_⟩
  rw [Circuit.compile_eq, Circuit.compile_eq, Except.ok.injEq] at h
  rw [h, Circuit.decode_code hd] at hdecode
  exact (Option.some.inj hdecode).symm

/-- A nested condition and a doubly guarded action; neither the name of the limit nor the polarity
of the output reaches the code. -/
def tankCircuit (limit : String) (inverse : Bool) : Circuit where
  condition :=
    ((Condition.leaf (.contact (.input ⟨"X", 0⟩) false)).or
      (.leaf (.contact (.input ⟨"X", 1⟩) false))).and
      (.leaf (.compare (.memory ⟨⟨"D", 0⟩, .int16⟩) .lt (.constant limit 80)))
  actions :=
    [.output (.timer ⟨"T", 0⟩ (.constant limit 80)),
      .interlocked (.negate (.leaf (.contact (.input ⟨"X", 2⟩) false)))
        (.interlocked (.leaf (.contact (.relay ⟨"M", 0⟩) false))
          (.set (.relay ⟨"Y", 0⟩ inverse)))]

theorem built_tankCircuit (limit : String) (inverse : Bool) :
    (tankCircuit limit inverse).Built where
  condition := .and (.or (.leaf _) (.leaf _)) (.leaf _)
  actions := by
    simp only [tankCircuit, List.forall_mem_cons]
    exact ⟨trivial, ⟨.negate (.leaf _), .leaf _, trivial⟩, List.forall_mem_nil _⟩

theorem decode_compile_tankCircuit :
    tankCircuit "" false ≠ tankCircuit "HIGH" true ∧
      (∃ commands, (tankCircuit "" false).compile (.unit "fill") = .ok commands ∧
        Schematic.decode commands = some (tankCircuit "" false).lower) ∧
      (tankCircuit "" false).lower = (tankCircuit "HIGH" true).lower :=
  have h := decode_compile (built_tankCircuit "" false) (built_tankCircuit "HIGH" true)
    (.unit "fill") (.unit "drain")
  ⟨by decide, h.1, h.2 rfl⟩

end Rung
