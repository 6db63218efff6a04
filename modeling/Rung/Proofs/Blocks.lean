import Rung.Proofs.Runs

/-!
# Blocks of a compiled sequence

Every circuit of a source is compiled into one block. The blocks lie one after another without gaps
and cover all commands, and since each of them starts and ends with empty stacks, a scan can be run
block by block, on fresh stacks every time.

* `Source.numbered`, `Sequence.addCircuit`, `Source.compile_eq_foldl`: compilation as a fold over
  the circuits of all units;
* `Block.Tiles`: blocks that lie one after another;
* `Sequence.LaidOut`: the blocks tile the commands and hold given code;
* `Sequence.LaidOut.addBlock`, `Sequence.laidOut_foldl`: one circuit, then all of them;
* **`Source.compile_blocks`**: the blocks of a source, and running them one by one.
-/

namespace Rung

/-! ## Compilation, circuit by circuit -/

/-- The circuits of a source in the order they are compiled, each with the name of its unit and its
position there. -/
def Source.numbered (src : Source) : List (String × Nat × Circuit) :=
  src.units.flatMap fun (name, u) => u.circuits.zipIdx.map fun (c, i) => (name, i, c)

theorem Source.map_numbered (src : Source) : src.numbered.map (·.2.2) = src.circuits := by
  unfold numbered circuits
  rw [List.map_flatMap]
  refine congrArg (List.flatMap · src.units) (funext fun nu => ?_)
  rw [List.map_map]
  exact List.zipIdx_map_fst 0 nu.2.circuits

namespace Sequence

def addCircuit (s : Sequence) (nc : String × Nat × Circuit) : Sequence :=
  (s.recordDepth (Gauge.ofCommands nc.2.2.code).peak).addBlock nc.1 nc.2.1 nc.2.2.code

theorem addCircuits_eq_foldl (unit : String) (cs : List Circuit) (s : Sequence) (index : Nat) :
    s.addCircuits unit index cs =
      .ok (((cs.zipIdx index).map fun (c, i) => (unit, i, c)).foldl addCircuit s) := by
  induction cs generalizing s index with
  | nil => rfl
  | cons c cs ih =>
    rw [addCircuits_cons, ih]
    rfl

theorem addUnits_eq_foldl_addCircuit (units : List (String × LogicUnit)) (s : Sequence) :
    s.addUnits units =
      .ok ((units.flatMap fun (name, u) =>
        u.circuits.zipIdx.map fun (c, i) => (name, i, c)).foldl addCircuit s) := by
  induction units generalizing s with
  | nil => rfl
  | cons nu units ih =>
    obtain ⟨name, u⟩ := nu
    rw [addUnits, addCircuits_eq_foldl, List.flatMap_cons, List.foldl_append]
    exact ih _

end Sequence

theorem Source.compile_eq_foldl (src : Source) :
    src.compile = .ok (src.numbered.foldl Sequence.addCircuit {}) := by
  rw [compile_eq_addUnits]
  exact Sequence.addUnits_eq_foldl_addCircuit src.units {}

/-! ## Tilings -/

namespace Block

/-- The blocks lie one after another from `lo` to `hi`, and none of them is empty. -/
def Tiles : Nat → List Block → Nat → Prop
  | lo, [], hi => lo = hi
  | lo, b :: bs, hi => b.start = lo ∧ b.start < b.stop ∧ Tiles b.stop bs hi

theorem Tiles.concat {bs : List Block} {b : Block} {lo : Nat} (h : Tiles lo bs b.start)
    (hb : b.start < b.stop) : Tiles lo (bs ++ [b]) b.stop := by
  induction bs generalizing lo with
  | nil => exact ⟨h.symm, hb, rfl⟩
  | cons a bs ih => exact ⟨h.1, h.2.1, ih h.2.2⟩

theorem Tiles.le {bs : List Block} {lo hi : Nat} (h : Tiles lo bs hi) : lo ≤ hi := by
  induction bs generalizing lo with
  | nil => exact Nat.le_of_eq h
  | cons a bs ih =>
    have hrest := ih h.2.2
    have hstart := h.1
    have hlt := h.2.1
    omega

theorem Tiles.stop_le {bs : List Block} {lo hi : Nat} (h : Tiles lo bs hi) :
    ∀ b ∈ bs, b.start < b.stop ∧ b.stop ≤ hi := by
  induction bs generalizing lo with
  | nil => exact fun b hb => absurd hb List.not_mem_nil
  | cons a bs ih =>
    intro b hb
    rcases List.mem_cons.mp hb with rfl | hb
    · exact ⟨h.2.1, h.2.2.le⟩
    · exact ih h.2.2 b hb

end Block

namespace Sequence

theorem blockCommands_of_le {s : Sequence} {b : Block} (h : b.start ≤ b.stop)
    (hb : b.stop ≤ s.commands.length) :
    s.blockCommands b = (s.commands.drop b.start).take (b.stop - b.start) := by
  rw [blockCommands, if_pos ⟨h, hb⟩]

/-- The commands of tiling blocks, put together, are the commands that the blocks cover. -/
theorem flatMap_blockCommands {s : Sequence} {bs : List Block} {lo hi : Nat}
    (h : Block.Tiles lo bs hi) (hhi : hi ≤ s.commands.length) :
    bs.flatMap s.blockCommands = (s.commands.drop lo).take (hi - lo) := by
  induction bs generalizing lo with
  | nil =>
    obtain rfl : lo = hi := h
    simp
  | cons b bs ih =>
    obtain ⟨rfl, hlt, hrest⟩ := h
    have hle := hrest.le
    have hsplit : hi - b.start = (b.stop - b.start) + (hi - b.stop) := by omega
    have hdrop : b.start + (b.stop - b.start) = b.stop := by omega
    rw [List.flatMap_cons, ih hrest, blockCommands_of_le hlt.le (hle.trans hhi), hsplit,
      List.take_add, List.drop_drop, hdrop]

/-! ## Laying out blocks -/

/-- The blocks tile the commands, and hold given code under given names and positions. -/
structure LaidOut (s : Sequence) (codes : List (String × Nat × List Command)) : Prop where
  tiles : Block.Tiles 0 s.blocks s.commands.length
  contents : s.blocks.map (fun b => (b.unit, b.circuit, s.blockCommands b)) = codes

theorem blockCommands_addBlock_of_le {s : Sequence} (unit : String) (index : Nat)
    (commands : List Command) {b : Block} (h : b.start ≤ b.stop)
    (hb : b.stop ≤ s.commands.length) :
    (s.addBlock unit index commands).blockCommands b = s.blockCommands b := by
  have hall : b.stop ≤ (s.addBlock unit index commands).commands.length := by
    simp only [addBlock, List.length_append]
    omega
  rw [blockCommands_of_le h hall, blockCommands_of_le h hb]
  simp only [addBlock]
  rw [List.drop_append_of_le_length (h.trans hb), List.take_append_of_le_length]
  rw [List.length_drop]
  omega

theorem blockCommands_addBlock_last (s : Sequence) (unit : String) (index : Nat)
    (commands : List Command) :
    (s.addBlock unit index commands).blockCommands
      ⟨unit, index, s.commands.length, (s.commands ++ commands).length⟩ = commands := by
  rw [blockCommands_of_le (by simp) (by simp [addBlock])]
  simp [addBlock]

theorem LaidOut.addBlock {s : Sequence} {codes : List (String × Nat × List Command)}
    (h : s.LaidOut codes) (unit : String) (index : Nat) {commands : List Command}
    (hne : commands ≠ []) :
    (s.addBlock unit index commands).LaidOut (codes ++ [(unit, index, commands)]) := by
  constructor
  · refine Block.Tiles.concat h.tiles ?_
    have hpos := List.length_pos_iff.mpr hne
    simp only [List.length_append]
    omega
  · have hbefore : s.blocks.map
          (fun b => (b.unit, b.circuit, (s.addBlock unit index commands).blockCommands b)) =
        codes := by
      rw [← h.contents]
      refine List.map_congr_left fun b hb => ?_
      obtain ⟨hlt, hle⟩ := h.tiles.stop_le b hb
      rw [blockCommands_addBlock_of_le unit index commands hlt.le hle]
    have hblocks : (s.addBlock unit index commands).blocks =
        s.blocks ++ [⟨unit, index, s.commands.length, (s.commands ++ commands).length⟩] := rfl
    rw [hblocks, List.map_append, hbefore, List.map_singleton, blockCommands_addBlock_last]

theorem laidOut_foldl (circuits : List (String × Nat × Circuit)) {s : Sequence}
    {codes : List (String × Nat × List Command)} (h : s.LaidOut codes) :
    (circuits.foldl addCircuit s).LaidOut
      (codes ++ circuits.map fun (unit, index, c) => (unit, index, c.code)) := by
  induction circuits generalizing s codes with
  | nil => simpa using h
  | cons nc circuits ih =>
    obtain ⟨unit, index, c⟩ := nc
    -- recording a depth touches neither the commands nor the blocks
    have hrecorded : (s.recordDepth (Gauge.ofCommands c.code).peak).LaidOut codes :=
      ⟨h.tiles, h.contents⟩
    have hne : c.code ≠ [] := by simp [Circuit.code]
    have hrest := ih (hrecorded.addBlock unit index hne)
    rw [List.append_assoc] at hrest
    exact hrest

end Sequence

/-! ## Running block by block -/

theorem Circuit.execute_code (c : Circuit) (img : Image) :
    execute c.code img = (c.scan img, none) := by
  have hrun := c.run_code [] [] img []
  rw [List.append_nil] at hrun
  rw [execute, hrun]
  rfl

/-- **Blocks partition a compiled sequence and run independently**, one for each circuit. -/
theorem Source.compile_blocks (src : Source) :
    ∃ s, src.compile = .ok s ∧
      s.blocks.map (fun b => (b.unit, b.circuit, s.blockCommands b)) =
        src.numbered.map (fun (name, i, c) => (name, i, c.code)) ∧
      Block.Tiles 0 s.blocks s.commands.length ∧
      (∀ b ∈ s.blocks, s.blockCommands b ≠ []) ∧
      s.blocks.flatMap s.blockCommands = s.commands ∧
      (∀ b ∈ s.blocks, ∀ img, (execute (s.blockCommands b) img).2 = none) ∧
      ∀ img, execute s.commands img =
        (s.blocks.foldl (fun img b => (execute (s.blockCommands b) img).1) img, none) := by
  obtain ⟨s, hs, hexecute⟩ := src.exists_compile_execute
  have hfold : s = src.numbered.foldl Sequence.addCircuit {} := by
    have hcompile := src.compile_eq_foldl
    rw [hs] at hcompile
    exact Except.ok.inj hcompile
  have hlaid : s.LaidOut (src.numbered.map fun (name, i, c) => (name, i, c.code)) := by
    have hempty : Sequence.LaidOut {} [] := ⟨rfl, rfl⟩
    rw [hfold]
    exact Sequence.laidOut_foldl src.numbered hempty
  have hcodes : s.blocks.map s.blockCommands = src.circuits.map Circuit.code := by
    have hthird := congrArg (List.map (·.2.2)) hlaid.contents
    rw [List.map_map, List.map_map] at hthird
    rw [← src.map_numbered, List.map_map]
    exact hthird
  have hmem : ∀ b ∈ s.blocks, ∃ c : Circuit, s.blockCommands b = c.code := by
    intro b hb
    have hb' : s.blockCommands b ∈ src.circuits.map Circuit.code :=
      hcodes ▸ List.mem_map_of_mem hb
    obtain ⟨c, -, hc⟩ := List.mem_map.mp hb'
    exact ⟨c, hc.symm⟩
  refine ⟨s, hs, hlaid.contents, hlaid.tiles, fun b hb => ?_, ?_, fun b hb img => ?_,
    fun img => ?_⟩
  · obtain ⟨c, hc⟩ := hmem b hb
    simp [hc, Circuit.code]
  · rw [Sequence.flatMap_blockCommands hlaid.tiles le_rfl, List.drop_zero, Nat.sub_zero,
      List.take_length]
  · obtain ⟨c, hc⟩ := hmem b hb
    rw [hc, c.execute_code]
  · rw [hexecute, Source.scan]
    have hfoldl : (s.blocks.map s.blockCommands).foldl (fun img cs => (execute cs img).1) img =
        src.circuits.foldl Circuit.scan img := by
      rw [hcodes, List.foldl_map]
      simp only [Circuit.execute_code]
    rw [← hfoldl, List.foldl_map]

end Rung
