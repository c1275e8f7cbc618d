/-!
# Case runs

Most characters that change case do so in runs: the capitals of an alphabet stand together, or alternate with
their small forms, and each moves by the same distance.
-/

namespace MapEmbed.Unicode

/-- The code points `first`, `first + stride`, … up to `last`, all of which move by `shift`. -/
structure CaseRun where
  first : Nat
  last : Nat
  stride : Nat
  shift : Int
  deriving DecidableEq, Repr

/-- The code point that a run maps to, if the run holds the given one. -/
def CaseRun.image? (run : CaseRun) (point : Nat) : Option Nat :=
  if run.first ≤ point ∧ point ≤ run.last ∧ (point - run.first) % run.stride = 0 then
    some ((point : Int) + run.shift).toNat
  else
    none

/-- The other-case form of a code point: that of the first run which holds it. -/
def caseForm? (runs : List CaseRun) (point : Nat) : Option Nat :=
  runs.findSome? (·.image? point)

end MapEmbed.Unicode
