/-! # Command-line arguments

Arguments are read from left to right; the first fault, or the first request for the version
or for help, ends the reading.
-/

namespace TensorLowering

namespace CommandLine

/-- What to write after a plan was lowered. -/
inductive Emit where
  | code
  | context
  | report
  deriving DecidableEq, Repr, Inhabited

/-- The output with a name. -/
def Emit.ofName? (name : String) : Option Emit :=
  if name = "code" then some .code
  else if name = "context" then some .context
  else if name = "report" then some .report
  else none

/-- Why arguments are refused. -/
inductive ArgumentFault where
  | unknownOption (option : String)
  | unexpectedValue (option : String)
  | missingValue (option : String)
  | badValue (option value : String)
  | repeatedOption (option : String)
  | surplus (argument : String)
  | missingPlan
  deriving DecidableEq, Repr

/-- The wording of a fault. -/
def ArgumentFault.message : ArgumentFault → String
  | .unknownOption option => "unknown option " ++ option
  | .unexpectedValue option => option ++ " takes no value"
  | .missingValue option => option ++ " needs a value"
  | .badValue option value => "bad value for " ++ option ++ ": " ++ value
  | .repeatedOption option => option ++ " is given twice"
  | .surplus argument => "unexpected argument " ++ argument
  | .missingPlan => "no plan is given"

/-- What has been read of the arguments so far. -/
structure Draft where
  plan : Option String := none
  output : Option String := none
  emit : Option Emit := none
  verbose : Bool := false
  deriving DecidableEq, Repr, Inhabited

/-- What to do with a plan. -/
structure Options where
  plan : String
  output : Option String := none
  emit : Emit := .code
  verbose : Bool := false
  deriving DecidableEq, Repr, Inhabited

/-- How much the help tells. -/
inductive HelpForm where
  | summary
  | full
  deriving DecidableEq, Repr

/-- What the arguments ask for. -/
inductive Request where
  | version
  | help (form : HelpForm)
  | lower (options : Options)
  deriving DecidableEq, Repr

namespace Draft

/-- Take a path that may be given once. -/
def setPath (option value : String) (given : Option String) : Except ArgumentFault String :=
  if given.isSome then .error (.repeatedOption option)
  else if value.isEmpty then .error (.missingValue option)
  else .ok value

/-- Take the path of the plan. -/
def setPlan (draft : Draft) (value : String) : Except ArgumentFault Draft :=
  if draft.plan.isSome then .error (.surplus value)
  else return { draft with plan := ← setPath "plan" value none }

/-- Take the path of the output. -/
def setOutput (draft : Draft) (value : String) : Except ArgumentFault Draft :=
  return { draft with output := ← setPath "--output" value draft.output }

/-- Take the kind of output. -/
def setEmit (draft : Draft) (value : String) : Except ArgumentFault Draft :=
  if draft.emit.isSome then .error (.repeatedOption "--emit")
  else
    match Emit.ofName? value with
    | some emit => .ok { draft with emit := some emit }
    | none => .error (.badValue "--emit" value)

/-- Take the flag for more messages. -/
def setVerbose (draft : Draft) : Except ArgumentFault Draft :=
  if draft.verbose then .error (.repeatedOption "--verbose")
  else .ok { draft with verbose := true }

/-- The request of arguments that have been read to the end. -/
def finish (draft : Draft) : Except ArgumentFault Request :=
  match draft.plan with
  | some plan =>
      .ok (.lower { plan, output := draft.output, emit := draft.emit.getD .code,
                    verbose := draft.verbose })
  | none => .error .missingPlan

end Draft

/-- What follows from one argument: go on, take the next argument as a value, or stop. -/
inductive Step where
  | proceed (draft : Draft)
  | value (option : String) (accept : String → Except ArgumentFault Draft)
  | stop (request : Request)

/-- Read the letters of an argument such as `-vo`. -/
def readLetters (draft : Draft) : List Char → Except ArgumentFault Step
  | [] => .ok (.proceed draft)
  | 'v' :: letters => do readLetters (← draft.setVerbose) letters
  | 'V' :: _ => .ok (.stop .version)
  | 'h' :: _ => .ok (.stop (.help .summary))
  | ['o'] => .ok (.value "-o" draft.setOutput)
  | 'o' :: '=' :: value => return .proceed (← draft.setOutput (String.ofList value))
  | 'o' :: value => return .proceed (← draft.setOutput (String.ofList value))
  | letter :: _ => .error (.unknownOption ("-" ++ String.ofList [letter]))

/-- The name of a long option and the value after an equals sign. -/
def splitLong (letters : List Char) : String × Option String :=
  let name := letters.takeWhile (· ≠ '=')
  match letters.drop name.length with
  | [] => (String.ofList name, none)
  | _ :: value => (String.ofList name, some (String.ofList value))

/-- Read an argument such as `--emit=code`, without its dashes. -/
def readLong (draft : Draft) (letters : List Char) : Except ArgumentFault Step :=
  match splitLong letters with
  | ("output", some value) => return .proceed (← draft.setOutput value)
  | ("output", none) => .ok (.value "--output" draft.setOutput)
  | ("emit", some value) => return .proceed (← draft.setEmit value)
  | ("emit", none) => .ok (.value "--emit" draft.setEmit)
  | ("verbose", none) => return .proceed (← draft.setVerbose)
  | ("version", none) => .ok (.stop .version)
  | ("help", none) => .ok (.stop (.help .full))
  | (name, some _) =>
      if ["verbose", "version", "help"].contains name then .error (.unexpectedValue ("--" ++ name))
      else .error (.unknownOption ("--" ++ name))
  | (name, none) => .error (.unknownOption ("--" ++ name))

/-- Read one argument. A single dash is a path. -/
def readArgument (draft : Draft) (argument : String) : Except ArgumentFault Step :=
  match argument.toList with
  | '-' :: '-' :: letters => readLong draft letters
  | '-' :: letter :: letters => readLetters draft (letter :: letters)
  | _ => return .proceed (← draft.setPlan argument)

/-- Whether an argument cannot be the value of an option. -/
def isOption (argument : String) : Bool :=
  match argument.toList with
  | '-' :: _ :: _ => true
  | _ => false

/-- Read arguments after what has been read. After two dashes all others are paths. -/
def readFrom : Draft → List String → Except ArgumentFault Request
  | draft, [] => draft.finish
  | draft, argument :: rest =>
      if argument = "--" then do (← rest.foldlM Draft.setPlan draft).finish
      else do
        match ← readArgument draft argument with
        | .proceed draft => readFrom draft rest
        | .stop request => return request
        | .value option accept =>
            match rest with
            | [] => throw (.missingValue option)
            | value :: rest =>
                if isOption value then throw (.missingValue option)
                else readFrom (← accept value) rest

/-- What the arguments ask for. -/
def Request.ofArguments (arguments : List String) : Except ArgumentFault Request :=
  readFrom {} arguments

end CommandLine

end TensorLowering
