import SchoolMath.CommandLine.Run

/-!
# `Main` — the program

Reads the arguments, prints what the run gives and ends with its code.
-/

open SchoolMath

def main (arguments : List String) : IO UInt32 := do
  let outcome := CommandLine.run arguments
  for line in outcome.log do
    IO.eprintln line
  IO.print outcome.output
  match outcome.message with
  | some message => IO.eprintln s!"Error: {message}"
  | none => if outcome.exitCode = 2 then IO.eprintln "error: the arguments make no request"
  return UInt32.ofNat outcome.exitCode
