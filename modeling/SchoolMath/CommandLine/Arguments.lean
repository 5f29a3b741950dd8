import SchoolMath.Number.Double
import SchoolMath.Triangle.Measurement

/-!
# `CommandLine.Arguments` — the arguments of the program

```text
schoolmath [--json] [-v] solve [--raw-ocr] LATEX
schoolmath [--json] [-v] normalize [--raw-ocr] LATEX
schoolmath [--json] [-v] system LATEX...
schoolmath [--json] [-v] triangle [--a V] … [--angle-c V] [--right-at VERTEX]
```

The options `--json` and `-v` may also stand behind the command. A value follows its option as the next
argument or behind `=`; as an argument of its own it must not look like an option. An option is given at
most once on each side of the command, and behind `--` nothing is an option.
-/

namespace SchoolMath.CommandLine

open Triangle (Vertex Measurement)

/-- What is asked for. -/
inductive Command where
  | solve (latex : String) (rawOcr : Bool)
  | system (equations : List String)
  | triangle (measurement : Measurement Float)
  | normalize (latex : String) (rawOcr : Bool)

/-- A command and how its result is to be shown. -/
structure Request where
  asJson : Bool
  verbose : Bool
  command : Command

/-- An option that a command has: a flag, or one with a value. -/
structure OptionSpec where
  name : String
  takesValue : Bool

/-- The options that stand on either side of the command. -/
def globalOptions : List OptionSpec := [⟨"json", false⟩, ⟨"verbose", false⟩]

/-- The options of `solve` and `normalize`. -/
def textOptions : List OptionSpec := ⟨"raw-ocr", false⟩ :: globalOptions

/-- The options of `triangle`. -/
def triangleOptions : List OptionSpec :=
  ["a", "b", "c", "angle-a", "angle-b", "angle-c", "right-at"].map (⟨·, true⟩) ++ globalOptions

/-- Arguments sorted into options, with the values they have, and the others. -/
structure Sorted where
  options : List (String × String) := []
  others : List String := []

namespace Sorted

/-- Whether an option is given. -/
def has (s : Sorted) (name : String) : Bool := (s.options.lookup name).isSome

/-- Adds an option that is not yet given. -/
def add? (s : Sorted) (name value : String) : Option Sorted :=
  if s.has name then none else some { s with options := (name, value) :: s.options }

end Sorted

/-- What a single argument is. -/
inductive Argument where
  /-- It stands for itself. -/
  | plain
  /-- It ends the options. -/
  | endOfOptions
  /-- It names an option, and gives its value if one stands behind `=`. -/
  | named (name : String) (value : Option String)
  /-- It looks like an option and is none. -/
  | unknown

/-- A word with the text behind its first `=`, if there is one. -/
def splitAtValue (word : List Char) : Argument :=
  match word.dropWhile (· != '=') with
  | [] => .named (String.ofList word) none
  | _ :: value => .named (String.ofList (word.takeWhile (· != '='))) (some (String.ofList value))

/-- What an argument is. Only the option `verbose` has a letter. -/
def Argument.read (argument : String) : Argument :=
  match argument.toList with
  | ['-', '-'] => .endOfOptions
  | '-' :: '-' :: word => splitAtValue word
  | ['-', 'v'] => .named "verbose" none
  | '-' :: _ :: _ => .unknown
  | _ => .plain

/-- Sorts the arguments by the options in `specs`; none if an option is unknown, lacks its value, has one
it does not take, or is repeated. `awaiting` is the option whose value comes next. With `leading`,
sorting ends at the first argument that is no option; it is returned with the arguments behind it. -/
def sort? (specs : List OptionSpec) (leading : Bool) (s : Sorted) :
    Option String → List String → Option (Sorted × List String)
  | none, [] => some (s, [])
  | some _, [] => none
  | some name, value :: arguments =>
    match Argument.read value with
    | .plain => (s.add? name value).bind fun s => sort? specs leading s none arguments
    | _ => none
  | none, argument :: arguments =>
    match Argument.read argument with
    | .plain =>
      if leading then some (s, argument :: arguments)
      else sort? specs leading { s with others := s.others ++ [argument] } none arguments
    | .endOfOptions =>
      if leading then none else some ({ s with others := s.others ++ arguments }, [])
    | .named name value? =>
      match specs.find? (·.name = name), value? with
      | some ⟨_, false⟩, none =>
        (s.add? name "").bind fun s => sort? specs leading s none arguments
      | some ⟨_, true⟩, some value =>
        (s.add? name value).bind fun s => sort? specs leading s none arguments
      | some ⟨_, true⟩, none => sort? specs leading s (some name) arguments
      | _, _ => none
    | .unknown => none

/-- The number given with an option; none if it cannot be read. -/
def number? (s : Sorted) (name : String) : Option (Option Float) :=
  match s.options.lookup name with
  | none => some none
  | some text => (Decimal.read? text).map some

/-- The measurement that the options of `triangle` give. -/
def measurement? (s : Sorted) : Option (Measurement Float) := do
  let sides := ⟨← number? s "a", ← number? s "b", ← number? s "c"⟩
  let angles := ⟨← number? s "angle-a", ← number? s "angle-b", ← number? s "angle-c"⟩
  let rightAt ← match s.options.lookup "right-at" with
    | none => some none
    | some text => (Vertex.read? text).map some
  return ⟨sides, angles, rightAt⟩

/-- The command with this name and these arguments, and the options given with it. -/
def command? (name : String) (arguments : List String) : Option (Command × Sorted) := do
  match name with
  | "solve" =>
    let (s, _) ← sort? textOptions false {} none arguments
    match s.others with
    | [latex] => return (.solve latex (s.has "raw-ocr"), s)
    | _ => none
  | "normalize" =>
    let (s, _) ← sort? textOptions false {} none arguments
    match s.others with
    | [latex] => return (.normalize latex (s.has "raw-ocr"), s)
    | _ => none
  | "system" =>
    let (s, _) ← sort? globalOptions false {} none arguments
    if s.others.isEmpty then none else return (.system s.others, s)
  | "triangle" =>
    let (s, _) ← sort? triangleOptions false {} none arguments
    if s.others.isEmpty then return (.triangle (← measurement? s), s) else none
  | _ => none

/-- The request that the arguments of the program make; none if they make none. -/
def request? (arguments : List String) : Option Request := do
  let (before, rest) ← sort? globalOptions true {} none arguments
  match rest with
  | [] => none
  | name :: rest =>
    let (command, behind) ← command? name rest
    let given (option : String) : Bool := before.has option || behind.has option
    return ⟨given "json", given "verbose", command⟩

end SchoolMath.CommandLine
