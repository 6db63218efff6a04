import Rung.Proofs.Blocks

/-!
# The listing of a sequence

A listing walks through the commands once and shows the header of the next block where that block
starts. Blocks that are not empty and lie one after another never get out of step with the walk:
each of them is listed under its own header, with the positions of its commands in the whole sequence.

* `row`, `blockText`, `blockTexts`: the text of blocks, said block by block;
* `Sequence.linesFrom_append`: commands before the next block are listed without a header;
* `Sequence.join_linesFrom`: the walk along blocks that tile the commands;
* `Sequence.Call`, `Sequence.ofCalls`, `Sequence.LaidOut.foldl_extend`: sequences as they
  are built up;
* **`Sequence.listing_tells_blocks`**: the listing of whatever is built up, or compiled.
-/

namespace Rung

/-! ## The text of blocks -/

/-- The row of a command: its index at the right of five columns, or of as many as it needs. -/
def row (index : Nat) (c : Command) : String :=
  String.ofList ((toString index).toList.leftpad 5 ' ') ++ "  " ++ c.text ++ "\n"

def rows (index : Nat) (commands : List Command) : List String :=
  (commands.zipIdx index).map fun (c, i) => row i c

def blockText (index : Nat) (unit : String) (circuit : Nat) (commands : List Command) : String :=
  "; " ++ unit ++ " #" ++ toString circuit ++ "\n" ++ String.join (rows index commands)

/-- The text of blocks one after another, with their commands numbered through from an index. -/
def blockTexts (index : Nat) : List (String × Nat × List Command) → String
  | [] => ""
  | (unit, circuit, commands) :: blocks =>
    blockText index unit circuit commands ++ blockTexts (index + commands.length) blocks

theorem rows_cons (index : Nat) (c : Command) (cs : List Command) :
    rows index (c :: cs) = row index c :: rows (index + 1) cs := rfl

namespace Sequence

theorem line_eq_row (index : Nat) (c : Command) : line index c = row index c := by
  rw [line, row, List.leftpad, String.ofList_append, String.ofList_toList, String.length_toList]

/-! ## The walk along the blocks -/

/-- Commands before the start of the next block are listed one by one, without a header. -/
theorem linesFrom_append (index : Nat) (bs : List Block) (cs rest : List Command)
    (h : ∀ b ∈ bs.head?, index + cs.length ≤ b.start) :
    linesFrom index bs (cs ++ rest) =
      rows index cs ++ linesFrom (index + cs.length) bs rest := by
  induction cs generalizing index with
  | nil => rfl
  | cons c cs ih =>
    have hlength : index + 1 + cs.length = index + (c :: cs).length := by
      rw [List.length_cons]
      omega
    rw [← hlength] at h ⊢
    rw [rows_cons, List.cons_append, List.cons_append, ← ih (index + 1) h, ← line_eq_row]
    cases bs with
    | nil => rfl
    | cons b bs =>
      have hbefore : b.start ≠ index := by
        have hb := h b rfl
        omega
      rw [linesFrom, if_neg hbefore]

theorem start_of_tiles {bs : List Block} {lo hi : Nat} (h : Block.Tiles lo bs hi) :
    ∀ b ∈ bs.head?, b.start = lo := by
  cases bs with
  | nil => exact nofun
  | cons b bs =>
    rintro _ ⟨⟩
    exact h.1

theorem drop_start {s : Sequence} {b : Block} (h : b.start ≤ b.stop)
    (hb : b.stop ≤ s.commands.length) :
    s.commands.drop b.start = s.blockCommands b ++ s.commands.drop b.stop := by
  have hdrop : b.start + (b.stop - b.start) = b.stop := by omega
  rw [blockCommands_of_le h hb, ← hdrop, ← List.drop_drop, hdrop, List.take_append_drop]

theorem start_add_length_blockCommands {s : Sequence} {b : Block} (h : b.start ≤ b.stop)
    (hb : b.stop ≤ s.commands.length) : b.start + (s.blockCommands b).length = b.stop := by
  rw [blockCommands_of_le h hb, List.length_take, List.length_drop]
  omega

/-- **The walk along tiling blocks** gives each block its header and its rows, one after another. -/
theorem join_linesFrom {s : Sequence} {bs : List Block} {lo : Nat}
    (h : Block.Tiles lo bs s.commands.length) :
    String.join (linesFrom lo bs (s.commands.drop lo)) =
      blockTexts lo (bs.map fun b => (b.unit, b.circuit, s.blockCommands b)) := by
  induction bs generalizing lo with
  | nil =>
    obtain rfl : lo = s.commands.length := h
    rw [List.drop_length]
    rfl
  | cons b bs ih =>
    obtain ⟨rfl, hlt, hrest⟩ := h
    have hnext := start_add_length_blockCommands hlt.le hrest.le
    rw [drop_start hlt.le hrest.le, List.map_cons, blockTexts, hnext, ← ih hrest]
    cases hcommands : s.blockCommands b with
    | nil =>
      rw [hcommands, List.length_nil] at hnext
      omega
    | cons c cs =>
      have hstop : b.start + 1 + cs.length = b.stop := by
        rw [hcommands, List.length_cons] at hnext
        omega
      have hwait : ∀ b' ∈ bs.head?, b.start + 1 + cs.length ≤ b'.start := fun b' hb' => by
        rw [start_of_tiles hrest b' hb', hstop]
      have hheader : header b = "; " ++ b.unit ++ " #" ++ toString b.circuit ++ "\n" := rfl
      -- the first command meets the start of the block, and the next block waits for its own
      rw [List.cons_append, linesFrom, if_pos rfl, linesFrom_append _ _ _ _ hwait, hstop,
        line_eq_row, ← List.cons_append, ← rows_cons, String.join_cons, String.join_append,
        ← String.append_assoc, hheader, blockText]

/-! ## Sequences as they are built up -/

/-- A call while a sequence is built up. -/
inductive Call where
  | addBlock (unit : String) (circuit : Nat) (commands : List Command)
  | recordDepth (depth : Depth)
  deriving DecidableEq, Repr

def Call.block? : Call → Option (String × Nat × List Command)
  | addBlock unit circuit commands => some (unit, circuit, commands)
  | recordDepth _ => none

def extend (s : Sequence) : Call → Sequence
  | .addBlock unit circuit commands => s.addBlock unit circuit commands
  | .recordDepth depth => s.recordDepth depth

def ofCalls (calls : List Call) : Sequence := calls.foldl extend {}

theorem LaidOut.foldl_extend {s : Sequence} {blocks : List (String × Nat × List Command)}
    (h : s.LaidOut blocks) {calls : List Call}
    (hne : ∀ block ∈ calls.filterMap Call.block?, block.2.2 ≠ []) :
    (calls.foldl extend s).LaidOut (blocks ++ calls.filterMap Call.block?) := by
  induction calls generalizing s blocks with
  | nil => simpa using h
  | cons call calls ih =>
    cases call with
    | addBlock unit circuit commands =>
      simp only [List.filterMap_cons, Call.block?, List.forall_mem_cons] at hne
      have hrest := ih (h.addBlock unit circuit hne.1) hne.2
      rwa [List.append_assoc] at hrest
    | recordDepth depth => exact ih ⟨h.tiles, h.contents⟩ hne

/-- **A sequence whose blocks lie one after another is listed block by block.** -/
theorem LaidOut.listing {s : Sequence} {blocks : List (String × Nat × List Command)}
    (h : s.LaidOut blocks) : s.listing = blockTexts 0 blocks := by
  rw [Sequence.listing, ← h.contents, ← join_linesFrom h.tiles, List.drop_zero]

theorem LaidOut.commands {s : Sequence} {blocks : List (String × Nat × List Command)}
    (h : s.LaidOut blocks) : s.commands = blocks.flatMap (·.2.2) := by
  rw [← h.contents, List.flatMap_map, flatMap_blockCommands h.tiles le_rfl, List.drop_zero,
    Nat.sub_zero, List.take_length]

/-- **The listing shows every block once and every command once**, under the index that the command
has in the whole sequence. -/
theorem listing_tells_blocks :
    (∀ calls : List Call, (∀ block ∈ calls.filterMap Call.block?, block.2.2 ≠ []) →
      ∃ s, ofCalls calls = s ∧
        s.blocks.map (fun b => (b.unit, b.circuit, s.blockCommands b)) =
          calls.filterMap Call.block? ∧
        s.commands = (calls.filterMap Call.block?).flatMap (·.2.2) ∧
        s.listing = blockTexts 0 (calls.filterMap Call.block?)) ∧
    ∀ src : Source, ∃ s, src.compile = .ok s ∧
      s.blocks.map (fun b => (b.unit, b.circuit, s.blockCommands b)) =
        src.numbered.map (fun (name, i, c) => (name, i, c.code)) ∧
      s.listing = blockTexts 0 (src.numbered.map fun (name, i, c) => (name, i, c.code)) := by
  have hempty : LaidOut {} [] := ⟨rfl, rfl⟩
  refine ⟨fun calls hne => ?_, fun src => ?_⟩
  · have hlaid := hempty.foldl_extend hne
    exact ⟨_, rfl, hlaid.contents, hlaid.commands, hlaid.listing⟩
  · have hlaid := laidOut_foldl src.numbered hempty
    exact ⟨_, src.compile_eq_foldl, hlaid.contents, hlaid.listing⟩

def twoBlocks : List Call :=
  [.recordDepth ⟨1, 0⟩,
    .addBlock "main" 0
      [.load (.bit (.input ⟨"X", 0⟩) true), .apply .output (.bit (.contact ⟨"Y", 10⟩)), .pop],
    .recordDepth ⟨2, 0⟩,
    .addBlock "main" 1 [.load (.compare (.cell ⟨.memory, ⟨"D", 0⟩⟩) .le (.constant (-3))), .pop]]

theorem listing_tells_blocks_twoBlocks :
    (∀ block ∈ twoBlocks.filterMap Call.block?, block.2.2 ≠ []) ∧
    (ofCalls twoBlocks).listing =
      "; main #0\n    0  LDI X0\n    1  OUT Y10\n    2  POP\n" ++
        "; main #1\n    3  LD<= D0 K-3\n    4  POP\n" := by
  have hne : ∀ block ∈ twoBlocks.filterMap Call.block?, block.2.2 ≠ [] := by decide
  obtain ⟨s, rfl, -, -, hlisting⟩ := listing_tells_blocks.1 twoBlocks hne
  exact ⟨hne, hlisting.trans (by decide)⟩

end Sequence

end Rung
