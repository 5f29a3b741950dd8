import SchoolMath.Answer
import SchoolMath.CommandLine.Arguments
import SchoolMath.Json
import SchoolMath.Ocr

/-!
# `CommandLine.Run` — what the program prints

A run ends with code 0 and a result on standard output, with code 1 and the message of a failure, or
with code 2 when the arguments make no request.
-/

namespace SchoolMath.CommandLine

/-- How a run ends. -/
structure Outcome where
  exitCode : Nat
  output : String := ""
  /-- The message of a failure. -/
  message : Option String := none
  /-- What is logged on request. -/
  log : List String := []
deriving DecidableEq, Repr

/-- The first line of a text; a carriage return before the line feed belongs to the line's end. -/
def firstLine (text : String) : String :=
  let line := text.toList.takeWhile (· != '\n')
  String.ofList (if line.getLast? = some '\r' then line.dropLast else line)

/-- The first line that a failing run writes to standard error. -/
def Outcome.errorLine (outcome : Outcome) : Option String :=
  outcome.message.map fun message => firstLine ("Error: " ++ message)

/-- An answer as a JSON object, its keys in ascending order. -/
def answerJson (answer : Answer) : Json := .object [
  ("kind", .string answer.kind.name),
  ("latex", .string answer.latex),
  ("numeric", match answer.numeric.bind Decimal.json? with
    | some text => .number text
    | none => .null),
  ("prompt", .string answer.prompt),
  ("steps", .array (answer.trace.steps.map .string))]

/-- A problem as a JSON object, its keys in ascending order. -/
def problemJson (problem : Problem Float) : Json :=
  match problem with
  | .expression e => .object [("kind", .string problem.kind), ("text", .string e.text)]
  | .equation e => .object [
      ("kind", .string problem.kind), ("left", .string e.left.text), ("right", .string e.right.text)]
  | .integral i => .object [
      ("integrand", .string i.integrand.text), ("kind", .string problem.kind),
      ("lower", .ofText? (i.lower.map (·.text))), ("upper", .ofText? (i.upper.map (·.text))),
      ("variable", .string i.unknown)]

/-- A problem on one line, behind the word for its kind. -/
def problemText : Problem Float → String
  | .expression e => s!"expr: {e.text}"
  | .equation e => s!"equation: {e.text}"
  | .integral i => s!"integral: {i.text}"

/-- The text that was meant by `latex`. -/
def prepared (latex : String) (rawOcr : Bool) : String := if rawOcr then Ocr.clean latex else latex

/-- The outcome that shows an answer. -/
def showAnswer (request : Request) (answer : Answer) : Outcome where
  exitCode := 0
  output :=
    if request.asJson then (answerJson answer).pretty ++ "\n"
    else s!"{answer.latex}\n{answer.trace.text}\n"
  log := if request.verbose then answer.trace.steps else []

/-- The outcome that shows a problem. -/
def showProblem (request : Request) (problem : Problem Float) : Outcome where
  exitCode := 0
  output := (if request.asJson then (problemJson problem).pretty else problemText problem) ++ "\n"

/-- Carries out a request. -/
def Request.carryOut (request : Request) : Except (Failure Float) Outcome :=
  match request.command with
  | .solve latex rawOcr => (Answer.ofLatex (prepared latex rawOcr)).map (showAnswer request)
  | .system equations => (Answer.ofSystem equations).map (showAnswer request)
  | .triangle measurement => (Answer.ofMeasurement measurement).map (showAnswer request)
  | .normalize latex rawOcr => (Problem.read (prepared latex rawOcr)).map (showProblem request)

/-- Runs the program on its arguments. -/
def run (arguments : List String) : Outcome :=
  match request? arguments with
  | none => { exitCode := 2 }
  | some request =>
    match request.carryOut with
    | .ok outcome => outcome
    | .error failure => { exitCode := 1, message := some failure.message }

end SchoolMath.CommandLine
