import Mathlib

/-!
# The last write wins

A register is written by some of the entries of a log.  Its value after the log
is what the last writing entry wrote, or the value it started with.

* `lastWrite_concat`: one more entry either writes the register or leaves it.
-/

namespace LastWrite

variable {ε ν : Type*} (write : ε → Option ν)

/-- The value of a register after a log. -/
def lastWrite (log : List ε) (start : ν) : ν := ((log.filterMap write).getLast?).getD start

theorem lastWrite_concat (log : List ε) (e : ε) (start : ν) :
    lastWrite write (log ++ [e]) start = (write e).getD (lastWrite write log start) := by
  rw [lastWrite, List.filterMap_append]
  cases h : write e with
  | none =>
    rw [List.filterMap_cons_none h, List.filterMap_nil, List.append_nil]
    rfl
  | some v =>
    rw [List.filterMap_cons_some h, List.filterMap_nil, List.getLast?_concat]
    rfl

end LastWrite
