/-!
# Decimal numbers in arguments

* `digits?`: a number written as decimal digits, at least one;
* `unsigned?`: digits with an optional `+`;
* `signed?`: digits with an optional `+` or `-`.
-/

namespace Rung.Text

/-- The number that decimal digits write; none unless there is a digit and nothing else. -/
def digits? (s : List Char) : Option Nat :=
  if s.isEmpty || !s.all Char.isDigit then none
  else some (s.foldl (fun n c => 10 * n + (c.toNat - '0'.toNat)) 0)

def unsigned? : List Char → Option Nat
  | '+' :: s => digits? s
  | s => digits? s

def signed? : List Char → Option Int
  | '-' :: s => (digits? s).map fun n => -(n : Int)
  | s => (unsigned? s).map fun n => (n : Int)

end Rung.Text
