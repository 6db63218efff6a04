import Rung.Command

/-!
# Stack gauges

A gauge follows the depths of the two stacks over a list of commands without running them, so that
the compiler can verify that a circuit is balanced.

* `Gauge`, `Gauge.feed`, `Gauge.ofCommands`.
-/

namespace Rung

/-- The stack depths after some commands. -/
structure Gauge where
  depth : Depth := {}
  /-- The largest depth reached so far, stack by stack. -/
  peak : Depth := {}
  /-- Whether some command took more values than there were. -/
  underflow : Bool := false
  deriving DecidableEq, Repr

namespace Gauge

/-- Follows one command. A stack that holds too few values for it is left empty before the command
puts its own. -/
def feed (g : Gauge) (c : Command) : Gauge :=
  let takes := c.stackUse.takes
  let puts := c.stackUse.puts
  let depth : Depth :=
    ⟨g.depth.primary - takes.primary + puts.primary,
      g.depth.secondary - takes.secondary + puts.secondary⟩
  { depth
    peak := g.peak.max depth
    underflow := g.underflow || decide (g.depth.primary < takes.primary) ||
      decide (g.depth.secondary < takes.secondary) }

def ofCommands (commands : List Command) : Gauge := commands.foldl feed {}

end Gauge

end Rung
