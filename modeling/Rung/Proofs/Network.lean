import Mathlib.Data.List.Basic
import Mathlib.Tactic.SplitIfs
import Rung.Condition

/-!
# Networks

A network is a tree of contacts whose nodes list any branches: one, none, or nodes of the same
operator again. The builders put branches under a node without a look at them, so it rests with each
of them that no such node arises. None does, and every network without such nodes can be built.

* `Network`, `Network.absorb`, `Network.build`, `Network.combine`, `Network.gather`,
  `Network.negate`: the builders on networks;
* `Network.Canonical`: two branches or more under every node, none of them of its operator;
* `Canonical.absorb`, `Canonical.combine`, `Canonical.gather`, `Canonical.negate`: what each builder
  keeps;
* `Network.Built`, `Built.canonical`, `Canonical.built`;
* `Network.nodes`, `Network.Flat`, **`Network.built_iff_nodes`**: the same, node by node.
-/

namespace Rung

/-- A tree of contacts. A node may have any number of branches, of any kind. -/
inductive Network where
  | leaf (bit : Bit)
  | node (op : Operator) (branches : List Network)

namespace Network

def operator? : Network → Option Operator
  | leaf _ => none
  | node op _ => some op

def branches : Network → List Network
  | leaf _ => []
  | node _ bs => bs

/-! ## Builders -/

/-- What a network contributes to a node: its branches when it is a node of the same operator, else
itself. Only one level is looked at. -/
def absorb (op : Operator) : Network → List Network
  | leaf b => [leaf b]
  | node op' bs => if op' = op then bs else [node op' bs]

/-- Puts branches under a node, whatever they are. -/
def build (op : Operator) (bs : List Network) : Network := node op bs

def combine (op : Operator) (m n : Network) : Network := build op (m.absorb op ++ n.absorb op)

def gather (op : Operator) (ns : List Network) : Option Network :=
  match ns.flatMap (absorb op) with
  | [] => none
  | [n] => some n
  | first :: second :: rest => some (build op (first :: second :: rest))

mutual

/-- Negates every leaf and replaces every operator by its dual, without joining nodes anew. -/
def negate : Network → Network
  | leaf b => leaf b.negate
  | node op bs => build op.dual (negateList bs)

def negateList : List Network → List Network
  | [] => []
  | n :: ns => n.negate :: negateList ns

end

theorem negateList_eq_map (ns : List Network) : negateList ns = ns.map negate := by
  induction ns with
  | nil => rfl
  | cons n ns ih => rw [negateList, ih, List.map_cons]

/-- A network that the builders make of contacts. -/
inductive Built : Network → Prop
  | leaf (b : Bit) : Built (leaf b)
  | combine {op : Operator} {m n : Network} : Built m → Built n → Built (combine op m n)
  | negate {n : Network} : Built n → Built n.negate
  | gather {op : Operator} {ns : List Network} {n : Network} :
      (∀ m ∈ ns, Built m) → gather op ns = some n → Built n

/-! ## What the builders keep -/

/-- Everywhere in the network, a node has two branches or more and none of its own operator. -/
inductive Canonical : Network → Prop
  | leaf (b : Bit) : Canonical (leaf b)
  | node {op : Operator} {bs : List Network} (two : 2 ≤ bs.length)
      (flat : ∀ n ∈ bs, n.operator? ≠ some op) (branches : ∀ n ∈ bs, Canonical n) :
      Canonical (node op bs)

/-- A canonical network contributes something, and nothing of the operator it contributes to. -/
theorem Canonical.absorb {n : Network} (h : n.Canonical) (op : Operator) :
    1 ≤ (n.absorb op).length ∧ ∀ m ∈ n.absorb op, m.operator? ≠ some op ∧ m.Canonical := by
  cases h with
  | leaf b =>
    refine ⟨Nat.le_refl 1, fun m hm => ?_⟩
    obtain rfl := List.mem_singleton.mp hm
    exact ⟨nofun, .leaf b⟩
  | @node op' bs two flat branches =>
    rw [Network.absorb]
    split_ifs with hop
    · subst hop
      exact ⟨Nat.le_of_succ_le two, fun m hm => ⟨flat m hm, branches m hm⟩⟩
    · refine ⟨Nat.le_refl 1, fun m hm => ?_⟩
      obtain rfl := List.mem_singleton.mp hm
      exact ⟨fun he => hop (Option.some.inj he), .node two flat branches⟩

theorem Canonical.combine {m n : Network} (hm : m.Canonical) (hn : n.Canonical) (op : Operator) :
    (combine op m n).Canonical := by
  obtain ⟨hm₁, hm⟩ := hm.absorb op
  obtain ⟨hn₁, hn⟩ := hn.absorb op
  have hbranches := List.forall_mem_append.mpr ⟨hm, hn⟩
  have htwo : 2 ≤ (m.absorb op ++ n.absorb op).length := by
    rw [List.length_append]
    omega
  exact .node htwo (fun b hb => (hbranches b hb).1) fun b hb => (hbranches b hb).2

theorem Canonical.gather {op : Operator} {ns : List Network} {n : Network}
    (h : gather op ns = some n) (hns : ∀ m ∈ ns, m.Canonical) : n.Canonical := by
  have hbranches : ∀ b ∈ ns.flatMap (Network.absorb op), b.operator? ≠ some op ∧ b.Canonical := by
    intro b hb
    obtain ⟨m, hm, hb⟩ := List.mem_flatMap.mp hb
    exact ((hns m hm).absorb op).2 b hb
  rw [Network.gather] at h
  generalize ns.flatMap (Network.absorb op) = bs at h hbranches
  rcases bs with _ | ⟨first, _ | ⟨second, rest⟩⟩
  · cases h
  · cases h
    exact (hbranches n List.mem_cons_self).2
  · cases h
    exact .node (Nat.le_add_left 2 rest.length) (fun b hb => (hbranches b hb).1) fun b hb =>
      (hbranches b hb).2

theorem operator?_negate (n : Network) : n.negate.operator? = n.operator?.map Operator.dual := by
  cases n <;> rfl

/-- Negation rebuilds every node with as many branches, and takes all operators to their duals. -/
theorem Canonical.negate {n : Network} (h : n.Canonical) : n.negate.Canonical := by
  induction h with
  | leaf b => exact .leaf b.negate
  | @node op bs two flat _ ih =>
    rw [Network.negate, negateList_eq_map]
    refine .node (by rwa [List.length_map]) (fun m hm he => ?_) fun m hm => ?_
    · obtain ⟨b, hb, rfl⟩ := List.mem_map.mp hm
      rw [operator?_negate] at he
      obtain ⟨op', hop, hdual⟩ := Option.map_eq_some_iff.mp he
      have hsame : op' = op := by rw [← Operator.dual_dual op', hdual, Operator.dual_dual]
      exact flat b hb (hsame ▸ hop)
    · obtain ⟨b, hb, rfl⟩ := List.mem_map.mp hm
      exact ih b hb

/-- **Built networks are canonical.** -/
theorem Built.canonical {n : Network} (h : n.Built) : n.Canonical := by
  induction h with
  | leaf b => exact .leaf b
  | combine _ _ ihm ihn => exact ihm.combine ihn _
  | negate _ ih => exact ih.negate
  | gather _ hgather ih => exact Canonical.gather hgather ih

/-! ## Canonical networks can be built -/

theorem absorb_of_operator?_ne {op : Operator} {n : Network} (h : n.operator? ≠ some op) :
    n.absorb op = [n] := by
  cases n with
  | leaf b => rfl
  | node op' bs =>
    have hop : op' ≠ op := fun he => h (by rw [operator?, he])
    rw [absorb, if_neg hop]

theorem gather_of_flat {op : Operator} {bs : List Network} (htwo : 2 ≤ bs.length)
    (hflat : ∀ n ∈ bs, n.operator? ≠ some op) : gather op bs = some (node op bs) := by
  have habsorb : bs.flatMap (absorb op) = bs := by
    calc bs.flatMap (absorb op)
        = bs.flatMap fun n => [n] :=
          List.flatMap_congr fun n hn => absorb_of_operator?_ne (hflat n hn)
      _ = bs := List.flatMap_singleton' _
  rw [gather, habsorb]
  rcases bs with _ | ⟨first, _ | ⟨second, rest⟩⟩
  · cases htwo
  · exact absurd htwo (by simp)
  · rfl

theorem Canonical.built {n : Network} (h : n.Canonical) : n.Built := by
  induction h with
  | leaf b => exact .leaf b
  | node two flat _ ih => exact .gather ih (gather_of_flat two flat)

/-! ## Nodes -/

mutual

def nodes : Network → List Network
  | leaf b => [leaf b]
  | node op bs => node op bs :: nodesList bs

def nodesList : List Network → List Network
  | [] => []
  | n :: ns => n.nodes ++ nodesList ns

end

/-- A node has two branches or more, and none of them is a node of its operator. -/
def Flat (n : Network) : Prop :=
  ∀ op, n.operator? = some op → 2 ≤ n.branches.length ∧ ∀ b ∈ n.branches, b.operator? ≠ some op

theorem flat_node_iff {op : Operator} {bs : List Network} :
    (node op bs).Flat ↔ 2 ≤ bs.length ∧ ∀ n ∈ bs, n.operator? ≠ some op := by
  constructor
  · intro h
    exact h op rfl
  · rintro h _ ⟨⟩
    exact h

-- nothing keeps a network from having a node that is not flat
example (b : Bit) : ¬ (build .and [leaf b]).Flat := by simp [build, flat_node_iff]

mutual

theorem canonical_iff_nodes : ∀ n : Network, n.Canonical ↔ ∀ m ∈ n.nodes, m.Flat
  | leaf b => by
    refine iff_of_true (.leaf b) fun m hm => ?_
    obtain rfl := List.mem_singleton.mp hm
    exact nofun
  | node op bs => by
    rw [nodes, List.forall_mem_cons, flat_node_iff, ← forall_canonical_iff_nodesList bs]
    constructor
    · intro h
      cases h with
      | node two flat branches => exact ⟨⟨two, flat⟩, branches⟩
    · rintro ⟨⟨two, flat⟩, branches⟩
      exact .node two flat branches

theorem forall_canonical_iff_nodesList : ∀ ns : List Network,
    (∀ n ∈ ns, n.Canonical) ↔ ∀ m ∈ nodesList ns, m.Flat
  | [] => iff_of_true nofun nofun
  | n :: ns => by
    rw [List.forall_mem_cons, nodesList, List.forall_mem_append, canonical_iff_nodes n,
      forall_canonical_iff_nodesList ns]

end

/-- **What can be built are the networks whose nodes are flat.** -/
theorem built_iff_nodes (n : Network) : n.Built ↔ ∀ m ∈ n.nodes, m.Flat := by
  rw [← canonical_iff_nodes]
  exact ⟨Built.canonical, Canonical.built⟩

end Network

end Rung
