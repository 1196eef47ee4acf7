import ClassSketch.Command.Info
import ClassSketch.CommandLine.Yaml

namespace ClassSketch.CommandLine

open Command Files

inductive Request where
  | print (inputs : List String) (output : Option String)
  | info (input : String) (yaml : Bool)
deriving DecidableEq, Repr

inductive UsageError where
  | missingCommand
  | unknownCommand (name : String)
  | missingInput
  | surplusInput (text : String)
  | emptyPath
  | unknownOption (text : String)
  | missingValue (option : String)
  | repeatedOption (option : String)
deriving DecidableEq, Repr

def UsageError.message : UsageError → String
  | missingCommand => "a command is required: print or info"
  | unknownCommand name => s!"unknown command {name}"
  | missingInput => "an input is required"
  | surplusInput text => s!"unexpected argument {text}"
  | emptyPath => "a path is empty"
  | unknownOption text => s!"unknown option {text}"
  | missingValue option => s!"{option} needs a value"
  | repeatedOption option => s!"{option} is given more than once"

def isOption (arg : String) : Bool := ['-'].isPrefixOf arg.toList && arg ≠ "-"

def after? (start arg : String) : Option String :=
  if start.toList.isPrefixOf arg.toList then
    some (String.ofList (arg.toList.drop start.length))
  else none

def attachedOutput? (arg : String) : Option String :=
  ((after? "--output=" arg).or (after? "-o=" arg)).or (after? "-o" arg)

def printRequest (inputs : List String) (output : Option String) : Except UsageError Request :=
  if inputs.isEmpty then .error .missingInput
  else if inputs.contains "" || output = some "" then .error .emptyPath
  else .ok (.print inputs output)

/-- Reads the arguments of `print`. `inputs` are those found so far, the last one first. -/
def parsePrint (inputs : List String) (output : Option String) :
    List String → Except UsageError Request
  | [] => printRequest inputs.reverse output
  | arg :: rest =>
    if arg = "--" then printRequest (inputs.reverse ++ rest) output
    else if !isOption arg then parsePrint (arg :: inputs) output rest
    else if arg = "-o" ∨ arg = "--output" then
      match rest with
      | [] => .error (.missingValue "--output")
      | value :: rest =>
        if isOption value then .error (.missingValue "--output")
        else if output.isSome then .error (.repeatedOption "--output")
        else parsePrint inputs (some value) rest
    else match attachedOutput? arg with
      | none => .error (.unknownOption arg)
      | some value =>
        if output.isSome then .error (.repeatedOption "--output")
        else parsePrint inputs (some value) rest

def infoRequest (inputs : List String) (yaml : Bool) : Except UsageError Request :=
  match inputs with
  | [] => .error .missingInput
  | [input] => if input.isEmpty then .error .emptyPath else .ok (.info input yaml)
  | _ :: second :: _ => .error (.surplusInput second)

def parseInfo (inputs : List String) (yaml : Bool) : List String → Except UsageError Request
  | [] => infoRequest inputs.reverse yaml
  | arg :: rest =>
    if arg = "--" then infoRequest (inputs.reverse ++ rest) yaml
    else if !isOption arg then parseInfo (arg :: inputs) yaml rest
    else if arg = "--yaml" then
      if yaml then .error (.repeatedOption arg) else parseInfo inputs true rest
    else .error (.unknownOption arg)

/-- Reads the command line: a command, then its arguments. Behind `--` nothing is an option. -/
def Request.ofArgs : List String → Except UsageError Request
  | [] => .error .missingCommand
  | "print" :: rest => parsePrint [] none rest
  | "info" :: rest => parseInfo [] false rest
  | name :: _ => .error (.unknownCommand name)

variable {m : Type → Type} [Monad m] [FileAccess m]

def Request.run : Request → m Outcome
  | print inputs output => Command.print inputs output
  | info input yaml => Command.info (fun c => .ok (Yaml.document c)) input yaml

def run (args : List String) : m (Except UsageError Outcome) := do
  match Request.ofArgs args with
  | .error e => return .error e
  | .ok request => return .ok (← request.run)

end ClassSketch.CommandLine
