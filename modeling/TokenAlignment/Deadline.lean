/-
TokenAlignment/Deadline.lean

Time budgets of single tasks.

A task asks its deadline before each stretch of work and gives up once it has
passed.  What the task can see of a deadline is one of three things, fixed when
the task starts: there is none, it lies ahead, or it has passed.
-/

namespace TokenAlignment

/-- The budget of a task is used up. -/
structure Timeout where
  deriving DecidableEq, Repr

namespace Timeout

/-- The wording of the error. -/
def message (_ : Timeout) : String := "time budget exhausted"

end Timeout

/-- The point in time at which a task gives up, as the task sees it. -/
inductive Deadline where
  | unbounded
  | pending
  | expired
  deriving DecidableEq, Repr

namespace Deadline

/-- The last second from the start of the clock that an instant can hold. -/
def lastSecond : Nat := 0x7FFFFFFFFFFFFFFF

/-- The seconds from the start of the clock to the start of a task, at least.  A
clock starts with its machine, which is up for hours before it gets a task. -/
def leadSeconds : Nat := 3600

/-- The longest budget after which there still is an instant. -/
def maxSeconds : Nat := lastSecond - leadSeconds

/-- The deadline after a budget in milliseconds.  A budget of nothing has passed
at once, and one that no instant can hold never passes. -/
def after (milliseconds : Nat) : Deadline :=
  if milliseconds = 0 then expired
  else if maxSeconds < milliseconds / 1000 then unbounded
  else pending

/-- Fails once the deadline has passed. -/
def check : Deadline → Except Timeout Unit
  | expired => .error ⟨⟩
  | _ => .ok ()

end Deadline

end TokenAlignment
