import Mathlib.Algebra.Ring.Int.Defs
import Rung.Proofs.Builders
import Rung.Proofs.Compilation

/-!
# Building a condition keeps its meaning

A formula is what is written down: bits, joined in pairs or in lists, and negated. Its value is the
ordinary one, computed from the state of the devices. The builders splice lists and push negation
into the bits, and the condition that comes out still has that value on every image.

* `Site.state`, `Word.number`, `Relation.Relates`, `Bit.closed`: the state of a bit device, read off
  the device itself;
* `Bit.evaluate_operand`: the operand of a bit device loads that state;
* `Condition.eval_combine`, `Condition.eval_gather`, `Condition.eval_negate`: one law per builder;
* `Formula`, `Formula.value`, `Formula.build`;
* **`Formula.eval_build`**: a formula without an empty list builds a condition with its value, and
  no other formula builds anything.
-/

namespace Rung

/-! ## The state of a bit device -/

/-- The state of a stored bit. The bit of a word is its digit in two's complement. -/
def Site.state (img : Image) : Site → Bool
  | input tag => img.bit ⟨.input, tag⟩
  | relay tag => img.bit ⟨.contact, tag⟩
  | memoryBit b => decide ((img.word ⟨.memory, b.memory.tag⟩).toInt / 2 ^ b.index % 2 = 1)

def Word.number (img : Image) : Word → Int
  | memory m => (img.word ⟨.memory, m.tag⟩).toInt
  | constant _ value => value.toInt
  | timer tag _ => (img.word ⟨.timer, tag⟩).toInt
  | counter tag _ => (img.word ⟨.counter, tag⟩).toInt

def Relation.Relates : Relation → Int → Int → Prop
  | eq, a, b => a = b
  | ne, a, b => a ≠ b
  | lt, a, b => a < b
  | le, a, b => a ≤ b
  | gt, a, b => a > b
  | ge, a, b => a ≥ b

instance (r : Relation) (a b : Int) : Decidable (r.Relates a b) :=
  match r with
  | .eq => inferInstanceAs (Decidable (a = b))
  | .ne => inferInstanceAs (Decidable (a ≠ b))
  | .lt => inferInstanceAs (Decidable (a < b))
  | .le => inferInstanceAs (Decidable (a ≤ b))
  | .gt => inferInstanceAs (Decidable (a > b))
  | .ge => inferInstanceAs (Decidable (a ≥ b))

def Bit.closed (img : Image) : Bit → Bool
  | contact site inverse => if inverse then !site.state img else site.state img
  | compare left relation right =>
    decide (relation.Relates (left.number img) (right.number img))

theorem Relation.holds_eq_decide_relates (r : Relation) (a b : Int64) :
    r.holds a b = decide (r.Relates a.toInt b.toInt) := by
  rw [Bool.eq_iff_iff, decide_eq_true_iff]
  cases r <;>
    simp [holds, Relates, Int64.toInt_inj, Int64.lt_iff_toInt_lt, Int64.le_iff_toInt_le]

/-- The bits of a 64-bit value are the digits of its number in two's complement. -/
theorem getLsbD_toBitVec_eq_decide (x : Int64) {i : Nat} (hi : i < 64) :
    x.toBitVec.getLsbD i = decide (x.toInt / 2 ^ i % 2 = 1) := by
  -- shifting the sign in from the left, the digit becomes the lowest one
  have hshift : (x.toBitVec.sshiftRight i).toInt = x.toInt / 2 ^ i := by
    rw [BitVec.toInt_sshiftRight, Int.shiftRight_eq_div_pow]
    push_cast
    rfl
  have hdigit : (x.toBitVec.sshiftRight i).getLsbD 0 = x.toBitVec.getLsbD i := by
    rw [BitVec.getLsbD_sshiftRight]
    simp [hi]
  rw [← hdigit, ← hshift, ← BitVec.testBit_toNat, Nat.testBit_eq_decide_div_mod_eq,
    BitVec.toInt_eq_toNat_cond]
  simp only [decide_eq_decide]
  split_ifs <;> omega

theorem Site.readPoint_point (img : Image) (site : Site) :
    img.readPoint site.point = site.state img := by
  cases site with
  | input tag | relay tag => rfl
  | memoryBit b =>
    have hindex : b.index < 64 := Nat.lt_of_lt_of_le b.index_lt b.memory.size.bits_le
    rw [point, Image.readPoint_memoryBit_eq_getLsbD]
    exact getLsbD_toBitVec_eq_decide _ hindex

theorem Word.toInt_readValue_value (img : Image) (w : Word) :
    (img.readValue w.value).toInt = w.number img := by
  cases w <;> rfl

theorem Bit.evaluate_operand (img : Image) (b : Bit) : img.evaluate b.operand = b.closed img := by
  cases b with
  | contact site inverse =>
    rw [operand, Image.evaluate, Site.readPoint_point, closed]
    cases inverse <;> simp
  | compare left relation right =>
    rw [operand, Image.evaluate, Relation.holds_eq_decide_relates, Word.toInt_readValue_value,
      Word.toInt_readValue_value, closed]

/-! ## One law per builder -/

theorem Operator.not_neutral (op : Operator) : (!op.neutral) = op.dual.neutral := by
  cases op <;> rfl

namespace Image

theorem evaluate_complement (img : Image) (operand : Operand) :
    img.evaluate operand.complement = !img.evaluate operand := by
  cases operand with
  | bit point inverse => cases inverse <;> simp [Operand.complement, evaluate]
  | compare left relation right => exact Relation.holds_inverse relation _ _

end Image

namespace Condition

variable (img : Image)

theorem eval_assemble (op : Operator) (c : Condition) (cs : List Condition) :
    (assemble op c cs).eval img = op.apply (c.eval img) (evalList img op cs) := by
  cases cs with
  | nil => rw [assemble, evalList, Operator.apply_neutral]
  | cons d cs => rw [assemble, eval, evalList]

theorem evalList_append (op : Operator) (cs ds : List Condition) :
    evalList img op (cs ++ ds) = op.apply (evalList img op cs) (evalList img op ds) := by
  induction cs with
  | nil => cases op <;> simp [evalList, Operator.neutral, Operator.apply]
  | cons c cs ih => rw [List.cons_append, evalList, ih, evalList, Operator.apply_assoc]

theorem evalList_absorb (op : Operator) (c : Condition) :
    evalList img op (c.absorb op) = c.eval img := by
  have hc := eval_assemble img op (c.parts op).1 (c.parts op).2
  rw [assemble_parts] at hc
  rw [absorb, evalList, hc]

/-- **A join has the joined value.** -/
theorem eval_combine (op : Operator) (c d : Condition) :
    (combine op c d).eval img = op.apply (c.eval img) (d.eval img) := by
  rw [combine_eq_assemble, eval_assemble, evalList_append, ← Operator.apply_assoc,
    evalList_absorb]
  congr 1
  exact evalList_absorb img op c

theorem eval_foldl_combine (op : Operator) (cs : List Condition) (c : Condition) :
    (cs.foldl (combine op) c).eval img = evalList img op (c :: cs) := by
  induction cs generalizing c with
  | nil => rw [List.foldl_nil, evalList, evalList, Operator.apply_neutral]
  | cons d cs ih =>
    rw [List.foldl_cons, ih, evalList, eval_combine, Operator.apply_assoc, ← evalList, ← evalList]

theorem gather_eq_none_iff {op : Operator} {cs : List Condition} :
    gather op cs = none ↔ cs = [] := by
  cases cs with
  | nil => exact iff_of_true rfl rfl
  | cons c cs => simp [gather_cons]

/-- **The join of a list has the joined value of its members.** -/
theorem eval_gather {op : Operator} {cs : List Condition} {c : Condition}
    (h : gather op cs = some c) : c.eval img = evalList img op cs := by
  cases cs with
  | nil => cases h
  | cons d cs =>
    rw [gather_cons, Option.some.injEq] at h
    rw [← h, eval_foldl_combine]

theorem evalList_and (cs : List Condition) : evalList img .and cs = cs.all (eval img) := by
  induction cs with
  | nil => rfl
  | cons c cs ih => rw [evalList, ih, List.all_cons, Operator.apply]

theorem evalList_or (cs : List Condition) : evalList img .or cs = cs.any (eval img) := by
  induction cs with
  | nil => rfl
  | cons c cs ih => rw [evalList, ih, List.any_cons, Operator.apply]

mutual

/-- **A negated condition has the opposite value.** -/
theorem eval_negate : ∀ c : Condition, c.negate.eval img = !c.eval img
  | leaf b => by rw [negate, eval, eval, Bit.operand_negate, Image.evaluate_complement]
  | junction op first second rest => by
    rw [negate, eval, eval, Operator.not_apply, Operator.not_apply, eval_negate first,
      eval_negate second, evalList_negateList op rest]

theorem evalList_negateList (op : Operator) : ∀ cs : List Condition,
    evalList img op.dual (negateList cs) = !evalList img op cs
  | [] => by rw [negateList, evalList, evalList, Operator.not_neutral]
  | c :: cs => by
    rw [negateList, evalList, evalList, Operator.not_apply, eval_negate c,
      evalList_negateList op cs]

end

end Condition

/-! ## Formulas -/

/-- A boolean combination of bit devices as it is written down. -/
inductive Formula where
  | leaf (bit : Bit)
  | and (left right : Formula)
  | or (left right : Formula)
  | negate (operand : Formula)
  | all (operands : List Formula)
  | any (operands : List Formula)
  deriving Repr

namespace Formula

mutual

def value (img : Image) : Formula → Bool
  | leaf b => b.closed img
  | and f g => f.value img && g.value img
  | or f g => f.value img || g.value img
  | negate f => !f.value img
  | all fs => (values img fs).all id
  | any fs => (values img fs).any id

def values (img : Image) : List Formula → List Bool
  | [] => []
  | f :: fs => f.value img :: values img fs

end

mutual

/-- The condition that the builders make of a formula; there is none of an empty list. -/
def build : Formula → Option Condition
  | leaf b => some (.leaf b)
  | and f g => do return (← f.build).and (← g.build)
  | or f g => do return (← f.build).or (← g.build)
  | negate f => do return (← f.build).negate
  | all fs => do Condition.all (← buildEach fs)
  | any fs => do Condition.any (← buildEach fs)

def buildEach : List Formula → Option (List Condition)
  | [] => some []
  | f :: fs => do return (← f.build) :: (← buildEach fs)

end

mutual

/-- No list in the formula is empty. -/
def complete : Formula → Bool
  | leaf _ => true
  | and f g | or f g => f.complete && g.complete
  | negate f => f.complete
  | all fs | any fs => !fs.isEmpty && completeEach fs

def completeEach : List Formula → Bool
  | [] => true
  | f :: fs => f.complete && completeEach fs

end

/-- What a formula may build: a condition with its value if it is complete, else nothing. -/
def Yields (f : Formula) : Option Condition → Prop
  | none => f.complete = false
  | some c => f.complete = true ∧ ∀ img, c.eval img = f.value img

def YieldsEach (fs : List Formula) : Option (List Condition) → Prop
  | none => completeEach fs = false
  | some cs => completeEach fs = true ∧ ∀ img, cs.map (Condition.eval img) = values img fs

theorem yields_combine (op : Operator) {f g h : Formula} {c d : Option Condition}
    (hcomplete : h.complete = (f.complete && g.complete))
    (hvalue : ∀ img, h.value img = op.apply (f.value img) (g.value img))
    (hf : f.Yields c) (hg : g.Yields d) :
    h.Yields (do return Condition.combine op (← c) (← d)) := by
  cases c with
  | none =>
    rw [Yields] at hf
    simp [Yields, hcomplete, hf]
  | some c =>
    cases d with
    | none =>
      rw [Yields] at hg
      simp [Yields, hcomplete, hg]
    | some d =>
      refine ⟨by rw [hcomplete, hf.1, hg.1, Bool.and_self], fun img => ?_⟩
      rw [hvalue, ← hf.2, ← hg.2]
      exact Condition.eval_combine img op c d

theorem length_values (img : Image) (fs : List Formula) : (values img fs).length = fs.length := by
  induction fs with
  | nil => rfl
  | cons f fs ih => rw [values, List.length_cons, List.length_cons, ih]

theorem yields_gather (op : Operator) {f : Formula} {fs : List Formula}
    {cs : Option (List Condition)} (hcomplete : f.complete = (!fs.isEmpty && completeEach fs))
    (hvalue : ∀ img ds, ds.map (Condition.eval img) = values img fs →
      Condition.evalList img op ds = f.value img)
    (h : YieldsEach fs cs) : f.Yields (cs.bind (Condition.gather op)) := by
  cases cs with
  | none =>
    rw [YieldsEach] at h
    simp [Yields, hcomplete, h]
  | some ds =>
    obtain ⟨hfs, hds⟩ := h
    have hlength : ds.length = fs.length := by
      rw [← length_values {} fs, ← hds {}, List.length_map]
    rw [Option.bind_some]
    cases hc : Condition.gather op ds with
    | none =>
      rw [Condition.gather_eq_none_iff.mp hc, List.length_nil] at hlength
      simp [Yields, hcomplete, List.eq_nil_of_length_eq_zero hlength.symm]
    | some c =>
      refine ⟨?_, fun img => ?_⟩
      · have hne : ds ≠ [] := fun he => by
          rw [Condition.gather_eq_none_iff.mpr he] at hc
          cases hc
        cases fs with
        | nil => exact absurd (List.eq_nil_of_length_eq_zero hlength) hne
        | cons g gs => simpa [hcomplete] using hfs
      · rw [Condition.eval_gather img hc, hvalue img ds (hds img)]

mutual

theorem yields_build : ∀ f : Formula, f.Yields f.build
  | leaf b => ⟨rfl, fun img => Bit.evaluate_operand img b⟩
  | and f g => yields_combine .and rfl (fun _ => rfl) (yields_build f) (yields_build g)
  | or f g => yields_combine .or rfl (fun _ => rfl) (yields_build f) (yields_build g)
  | negate f => by
    have hf := yields_build f
    rw [build]
    cases hc : f.build with
    | none => rwa [hc] at hf
    | some c =>
      rw [hc] at hf
      refine ⟨hf.1, fun img => ?_⟩
      rw [value, ← hf.2, Condition.eval_negate]
  | all fs => by
    refine yields_gather .and rfl (fun img ds hds => ?_) (yieldsEach_buildEach fs)
    rw [Condition.evalList_and, value, ← hds, List.all_map, Function.id_comp]
  | any fs => by
    refine yields_gather .or rfl (fun img ds hds => ?_) (yieldsEach_buildEach fs)
    rw [Condition.evalList_or, value, ← hds, List.any_map, Function.id_comp]

theorem yieldsEach_buildEach : ∀ fs : List Formula, YieldsEach fs (buildEach fs)
  | [] => ⟨rfl, fun _ => rfl⟩
  | f :: fs => by
    have hf := yields_build f
    have hfs := yieldsEach_buildEach fs
    rw [buildEach]
    cases hc : f.build with
    | none =>
      rw [hc, Yields] at hf
      simp [YieldsEach, completeEach, hf]
    | some c =>
      cases hcs : buildEach fs with
      | none =>
        rw [hcs, YieldsEach] at hfs
        simp [YieldsEach, completeEach, hfs]
      | some cs =>
        rw [hc] at hf
        rw [hcs] at hfs
        refine ⟨by rw [completeEach, hf.1, hfs.1, Bool.and_self], fun img => ?_⟩
        rw [List.map_cons, hf.2, hfs.2, values]

end

/-- **Building a condition keeps its meaning.** A formula builds a condition unless some list in it
is empty. -/
theorem eval_build :
    (∀ f : Formula, (f.build = none ↔ f.complete = false) ∧
      ∀ c, f.build = some c → ∀ img, c.eval img = f.value img) ∧
    (∀ (img : Image) (first second : Condition) (rest : List Condition),
      (Condition.junction .and first second rest).eval img =
        (first :: second :: rest).all (Condition.eval img) ∧
      (Condition.junction .or first second rest).eval img =
        (first :: second :: rest).any (Condition.eval img)) ∧
    (∀ (c : Condition) (img : Image), c.negate.eval img = !c.eval img) ∧
    (∀ (r : Relation) (a b : Int64), r.inverse.holds a b = !r.holds a b) ∧
    ∀ cs : List Condition,
      (Condition.all cs = none ↔ cs = []) ∧ (Condition.any cs = none ↔ cs = []) := by
  refine ⟨fun f => ?_, fun img first second rest => ⟨?_, ?_⟩, fun c img => c.eval_negate img,
    Relation.holds_inverse, fun cs => ⟨?_, ?_⟩⟩
  · have hf := yields_build f
    cases hc : f.build with
    | none =>
      rw [hc] at hf
      exact ⟨iff_of_true rfl hf, nofun⟩
    | some c =>
      rw [hc] at hf
      refine ⟨iff_of_false nofun (by rw [hf.1]; nofun), fun d hd => ?_⟩
      cases hd
      exact hf.2
  · rw [← Condition.evalList_and]
    rfl
  · rw [← Condition.evalList_or]
    rfl
  · exact Condition.gather_eq_none_iff
  · exact Condition.gather_eq_none_iff

end Formula

end Rung
