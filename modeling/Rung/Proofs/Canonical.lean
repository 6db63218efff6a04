import Rung.Circuit
import Rung.Proofs.Network

/-!
# Canonical conditions

The builders of conditions are those of networks: a condition stands for a network, and each builder
does to conditions what it does to networks. So the conditions that are built are canonical as
networks are, and no network is built that a condition does not stand for.

* `Condition.network`, `Condition.network_injective`: the network that a condition stands for;
* `Condition.network_combine`, `Condition.gather_network`, `Condition.network_negate`: the builders;
* `Condition.Built`, `Action.Built`, `Circuit.Built`, `Condition.Built.network`,
  `Condition.exists_of_built_network`;
* `Condition.operator?`, `Condition.Canonical`, **`Condition.Built.canonical`**;
* **`Network.built_iff_flat`**: all that the builders can make.
-/

namespace Rung

namespace Condition

/-! ## The network of a condition -/

mutual

/-- The network that a condition stands for. -/
def network : Condition → Network
  | leaf b => .leaf b
  | junction op first second rest =>
    .node op (first.network :: second.network :: networkList rest)

def networkList : List Condition → List Network
  | [] => []
  | c :: cs => c.network :: networkList cs

end

theorem networkList_eq_map (cs : List Condition) : networkList cs = cs.map network := by
  induction cs with
  | nil => rfl
  | cons c cs ih => rw [networkList, ih, List.map_cons]

theorem network_junction (op : Operator) (first second : Condition) (rest : List Condition) :
    (junction op first second rest).network =
      .node op ((first :: second :: rest).map network) := by
  rw [network, networkList_eq_map, List.map_cons, List.map_cons]

mutual

theorem eq_of_network_eq : ∀ {c d : Condition}, c.network = d.network → c = d
  | leaf a, leaf b, h => by
    cases h
    rfl
  | junction op c₁ c₂ cs, junction op' d₁ d₂ ds, h => by
    rw [network, network, Network.node.injEq, List.cons.injEq, List.cons.injEq] at h
    obtain ⟨rfl, h₁, h₂, hs⟩ := h
    rw [eq_of_network_eq h₁, eq_of_network_eq h₂, eq_of_networkList_eq hs]

theorem eq_of_networkList_eq : ∀ {cs ds : List Condition}, networkList cs = networkList ds → cs = ds
  | [], [], _ => rfl
  | c :: cs, d :: ds, h => by
    rw [networkList, networkList, List.cons.injEq] at h
    rw [eq_of_network_eq h.1, eq_of_networkList_eq h.2]

end

theorem network_injective : Function.Injective network := fun _ _ h => eq_of_network_eq h

/-! ## The builders -/

theorem absorb_network (op : Operator) (c : Condition) :
    c.network.absorb op = (c.absorb op).map network := by
  cases c with
  | leaf b => rfl
  | junction op' first second rest =>
    rw [network_junction, Network.absorb, absorb, parts]
    split_ifs
    · rfl
    · rw [← network_junction]
      rfl

theorem network_combine (op : Operator) (c d : Condition) :
    (combine op c d).network = .combine op c.network d.network := by
  rw [Network.combine, absorb_network, absorb_network, ← List.map_append, ← children_combine]
  unfold combine
  rcases c.parts op with ⟨a, _ | ⟨a', as⟩⟩ <;> rw [network_junction] <;> rfl

theorem gather_network (op : Operator) (cs : List Condition) :
    Network.gather op (cs.map network) = (gather op cs).map network := by
  have habsorb : (cs.map network).flatMap (Network.absorb op) =
      (cs.flatMap (absorb op)).map network := by
    rw [List.flatMap_map, List.map_flatMap]
    simp only [absorb_network]
  rw [Network.gather, habsorb, gather]
  rcases cs.flatMap (absorb op) with _ | ⟨first, _ | ⟨second, rest⟩⟩
  · rfl
  · rfl
  · rw [Option.map_some, network_junction]
    rfl

mutual

theorem network_negate : ∀ c : Condition, c.negate.network = c.network.negate
  | leaf b => rfl
  | junction op first second rest => by
    rw [negate, network, network, Network.negate, Network.negateList, Network.negateList,
      network_negate first, network_negate second, networkList_negateList rest]
    rfl

theorem networkList_negateList : ∀ cs : List Condition,
    networkList (negateList cs) = Network.negateList (networkList cs)
  | [] => rfl
  | c :: cs => by
    rw [negateList, networkList, networkList, Network.negateList, network_negate c,
      networkList_negateList cs]

end

/-! ## Built conditions -/

/-- A condition that the builders make of bits. -/
inductive Built : Condition → Prop
  | leaf (b : Bit) : Built (leaf b)
  | and {c d : Condition} : Built c → Built d → Built (c.and d)
  | or {c d : Condition} : Built c → Built d → Built (c.or d)
  | negate {c : Condition} : Built c → Built c.negate
  | all {cs : List Condition} {c : Condition} :
      (∀ d ∈ cs, Built d) → all cs = some c → Built c
  | any {cs : List Condition} {c : Condition} :
      (∀ d ∈ cs, Built d) → any cs = some c → Built c

theorem Built.combine {c d : Condition} (hc : c.Built) (hd : d.Built) (op : Operator) :
    (combine op c d).Built := by
  cases op with
  | and => exact hc.and hd
  | or => exact hc.or hd

theorem Built.gather {op : Operator} {cs : List Condition} {c : Condition}
    (hcs : ∀ d ∈ cs, d.Built) (h : gather op cs = some c) : c.Built := by
  cases op with
  | and => exact .all hcs h
  | or => exact .any hcs h

theorem built_network_of_gather {op : Operator} {cs : List Condition} {c : Condition}
    (hcs : ∀ d ∈ cs, d.network.Built) (h : gather op cs = some c) : c.network.Built := by
  have hgather : Network.gather op (cs.map network) = some c.network := by
    rw [gather_network, h, Option.map_some]
  exact .gather (List.forall_mem_map.mpr hcs) hgather

theorem Built.network {c : Condition} (h : c.Built) : c.network.Built := by
  induction h with
  | leaf b => exact .leaf b
  | and _ _ ihc ihd =>
    rw [Condition.and, network_combine]
    exact .combine ihc ihd
  | or _ _ ihc ihd =>
    rw [Condition.or, network_combine]
    exact .combine ihc ihd
  | negate _ ih =>
    rw [network_negate]
    exact .negate ih
  | all _ h ih | any _ h ih => exact built_network_of_gather ih h

theorem exists_map_network {ns : List Network}
    (h : ∀ n ∈ ns, ∃ c : Condition, c.Built ∧ c.network = n) :
    ∃ cs : List Condition, (∀ c ∈ cs, c.Built) ∧ cs.map Condition.network = ns := by
  induction ns with
  | nil => exact ⟨[], nofun, rfl⟩
  | cons n ns ih =>
    rw [List.forall_mem_cons] at h
    obtain ⟨⟨c, hc, hn⟩, h⟩ := h
    obtain ⟨cs, hcs, hns⟩ := ih h
    exact ⟨c :: cs, List.forall_mem_cons.mpr ⟨hc, hcs⟩, by rw [List.map_cons, hn, hns]⟩

/-- **A built condition stands for every built network.** -/
theorem exists_of_built_network {n : Network} (h : n.Built) :
    ∃ c : Condition, c.Built ∧ c.network = n := by
  induction h with
  | leaf b => exact ⟨.leaf b, .leaf b, rfl⟩
  | @combine op _ _ _ _ ihm ihn =>
    obtain ⟨c, hc, rfl⟩ := ihm
    obtain ⟨d, hd, rfl⟩ := ihn
    exact ⟨Condition.combine op c d, hc.combine hd op, network_combine op c d⟩
  | negate _ ih =>
    obtain ⟨c, hc, rfl⟩ := ih
    exact ⟨c.negate, hc.negate, network_negate c⟩
  | gather _ hgather ih =>
    obtain ⟨cs, hcs, rfl⟩ := exists_map_network ih
    rw [gather_network] at hgather
    obtain ⟨c, hc, rfl⟩ := Option.map_eq_some_iff.mp hgather
    exact ⟨c, Built.gather hcs hc, rfl⟩

/-! ## Canonical conditions -/

def operator? : Condition → Option Operator
  | leaf _ => none
  | junction op _ _ _ => some op

theorem operator?_network (c : Condition) : c.network.operator? = c.operator? := by
  cases c <;> rfl

/-- Everywhere in the condition, the children of a junction are not junctions of its operator. -/
inductive Canonical : Condition → Prop
  | leaf (b : Bit) : Canonical (leaf b)
  | junction {op : Operator} {first second : Condition} {rest : List Condition}
      (flat : ∀ c ∈ first :: second :: rest, c.operator? ≠ some op)
      (children : ∀ c ∈ first :: second :: rest, Canonical c) :
      Canonical (junction op first second rest)

mutual

theorem canonical_of_network : ∀ c : Condition, c.network.Canonical → c.Canonical
  | leaf b, _ => .leaf b
  | junction op first second rest, h => by
    rw [network_junction] at h
    cases h with
    | node _ flat branches =>
      simp only [List.forall_mem_map, operator?_network] at flat
      simp only [List.forall_mem_map, List.forall_mem_cons] at branches
      refine .junction flat ?_
      simp only [List.forall_mem_cons]
      exact ⟨canonical_of_network first branches.1, canonical_of_network second branches.2.1,
        canonical_of_networks rest branches.2.2⟩

theorem canonical_of_networks : ∀ cs : List Condition, (∀ c ∈ cs, c.network.Canonical) →
    ∀ c ∈ cs, c.Canonical
  | [], _ => nofun
  | c :: cs, h => by
    rw [List.forall_mem_cons] at h ⊢
    exact ⟨canonical_of_network c h.1, canonical_of_networks cs h.2⟩

end

/-- **Built conditions are canonical.** -/
theorem Built.canonical {c : Condition} (h : c.Built) : c.Canonical :=
  canonical_of_network c h.network.canonical

end Condition

/-- **What is built is flat at every node.** A network can be built exactly when each of its nodes
has two branches or more and none of its own operator; and then it stands for one built condition. -/
theorem Network.built_iff_flat (n : Network) :
    (n.Built ↔ ∀ m ∈ n.nodes, m.Flat) ∧
    (n.Built ↔ ∃ c : Condition, c.Built ∧ c.network = n) ∧
    ∀ c d : Condition, c.network = n → d.network = n → c = d := by
  refine ⟨built_iff_nodes n, ⟨Condition.exists_of_built_network, ?_⟩, fun c d hc hd => ?_⟩
  · rintro ⟨c, hc, rfl⟩
    exact hc.network
  · exact Condition.network_injective (hc.trans hd.symm)

def Action.Built : Action → Prop
  | drive _ _ => True
  | interlocked guard action => guard.Built ∧ action.Built

structure Circuit.Built (c : Circuit) : Prop where
  condition : c.condition.Built
  actions : ∀ a ∈ c.actions, a.Built

end Rung
