import Rung.Device.Basic

/-!
# Allocators

An allocator owns the addresses from its origin up to, but not including, origin plus size. Each
allocation issues one address and moves the cursor past it, so equal calls issue equal addresses. A
request gives the allocator that is left, with a tag or with the reason why there is none.

* `Stock`: what an allocator issues;
* `Allocator`, `Allocator.allocate`, `Allocator.allocateAt`;
* `AddressRange`, `AddressRange.overlaps`: what is left of an allocator once it is registered.
-/

namespace Rung

/-- What an allocator issues, with the data that all its devices share. -/
inductive Stock where
  | input
  | contact
  | memory (size : WordSize)
  | timer (preset : Word)
  | counter (preset : Word)
  | stringBuffer (wordCount : UInt32)
  deriving DecidableEq, Repr

namespace Stock

def kind : Stock → Kind
  | input => .input
  | contact => .contact
  | memory _ => .memory
  | timer _ => .timer
  | counter _ => .counter
  | stringBuffer _ => .stringBuffer

def device : Stock → Tag → Device
  | input, tag => .bit (.contact (.input tag) false)
  | contact, tag => .bit (.contact (.relay tag) false)
  | memory size, tag => .word (.memory ⟨tag, size⟩)
  | timer preset, tag => .word (.timer tag preset)
  | counter preset, tag => .word (.counter tag preset)
  | stringBuffer wordCount, tag => .stringBuffer { tag, wordCount }

end Stock

structure Comment where
  device : Device
  text : String
  deriving DecidableEq, Repr

/-- Issues devices of one stock from a range of addresses. -/
structure Allocator where
  stock : Stock
  name : String
  size : UInt32
  origin : UInt32
  /-- The next address to issue; it may lie one past the last address there is. -/
  cursor : Nat := origin.toNat
  /-- Comments on the issued devices, in order of issue. -/
  comments : List Comment := []
  deriving DecidableEq, Repr

namespace Allocator

def bound (a : Allocator) : Nat := a.origin.toNat + a.size.toNat

def device (a : Allocator) (tag : Tag) : Device := a.stock.device tag

def overflow (a : Allocator) (message : String) : Diagnostic :=
  let exhausted : Diagnostic :=
    { problem := .allocationOverflow, primary := ⟨.allocator a.name a.cursor, message⟩ }
  (exhausted.describe "origin" (toString a.origin.toNat)).describe "size" (toString a.size.toNat)

/-- Issues the address at the cursor, provided it is a 32-bit address. -/
def issue (a : Allocator) (comment : Option String) : Allocator × Except Diagnostic Tag :=
  if a.cursor < UInt32.size then
    let tag : Tag := ⟨a.name, UInt32.ofNat a.cursor⟩
    let noted := comment.toList.map fun text => ⟨a.device tag, text⟩
    ({ a with cursor := a.cursor + 1, comments := a.comments ++ noted }, .ok tag)
  else (a, .error (a.overflow "Address does not fit the address space"))

def allocate (a : Allocator) (comment : Option String) : Allocator × Except Diagnostic Tag :=
  if a.cursor < a.bound then a.issue comment
  else (a, .error (a.overflow "Address range is exhausted"))

/-- Issues a given address, which must lie ahead of the cursor and inside the range. The cursor is
moved there before the address is issued. -/
def allocateAt (a : Allocator) (target : UInt32) (comment : Option String) :
    Allocator × Except Diagnostic Tag :=
  if a.cursor < target.toNat ∧ target.toNat < a.bound then
    { a with cursor := target.toNat }.issue comment
  else
    (a, .error ((a.overflow "Skip target is not ahead of the cursor within the range").describe
      "skip_to" (toString target.toNat)))

end Allocator

/-- The addresses an allocator owned, with the comments it recorded. -/
structure AddressRange where
  name : String
  kind : Kind
  origin : UInt32
  size : UInt32
  comments : List Comment := []
  deriving DecidableEq, Repr

namespace AddressRange

def bound (r : AddressRange) : Nat := r.origin.toNat + r.size.toNat

/-- Whether two ranges of one name reach into each other: each begins before the other ends. -/
def overlaps (r s : AddressRange) : Bool :=
  r.name == s.name && decide (r.origin.toNat < s.bound) && decide (s.origin.toNat < r.bound)

def text (r : AddressRange) : String := s!"{r.name}[{r.origin.toNat}..{r.bound})"

end AddressRange

def Allocator.range (a : Allocator) : AddressRange :=
  { name := a.name, kind := a.stock.kind, origin := a.origin, size := a.size,
    comments := a.comments }

end Rung
