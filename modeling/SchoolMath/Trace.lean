import SchoolMath.Text.LowerCase
import SchoolMath.Text.Replace

/-!
# `Trace` — the steps of a derivation, for a reader

A trace holds the wording of the steps in the order in which they were taken.
-/

namespace SchoolMath

/-- The steps of a derivation in order. -/
structure Trace where
  steps : List String := []
deriving DecidableEq, Repr

namespace Trace

/-- The trace with one more step. -/
def record (trace : Trace) (step : String) : Trace := ⟨trace.steps ++ [step]⟩

/-- The number of steps. -/
def size (trace : Trace) : Nat := trace.steps.length

/-- Whether no step has been taken. -/
def isEmpty (trace : Trace) : Bool := trace.steps.isEmpty

/-- Whether a step holds `words`, capital or small. -/
def mentions (trace : Trace) (words : String) : Bool :=
  let sought := (Text.lowerCase words).toList
  trace.steps.any fun step => Text.occursIn sought (Text.lowerCase step).toList

/-- The steps on lines of their own, numbered from 1. -/
def text (trace : Trace) : String :=
  "\n".intercalate (trace.steps.zipIdx.map fun (step, i) => s!"{i + 1}. {step}")

end Trace

end SchoolMath
