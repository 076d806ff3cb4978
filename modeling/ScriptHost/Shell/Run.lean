import ScriptHost.Shell.Programs

/-!
# Running commands

A shell runs the commands of a line one after the other. Loops and nested commands are
bounded by fuel, so that every line ends.
-/

namespace ScriptHost
namespace Shell

/-! ## Steps with a state of their own -/

/-- Run a step and keep nothing of it but the files, the time and what was written. -/
def apart
    {α : Type}
    (step : ShellM α) : ShellM (Except Stop α) := do
  let before ← get
  let ending ← tryCatch (Except.ok <$> step) fun stop => pure (.error stop)
  modify fun state =>
    { before with
      files := { state.files with current := before.files.current }
      chunks := state.chunks
      elapsed := state.elapsed }
  pure ending

/-- Run a step in a copy of the shell. Leaving the copy ends the step only, while a signal
reaches the shell itself. -/
def inSubshell (step : ShellM Unit) : ShellM Unit := do
  let ending ← apart do
    step
    pure (← get).status
  let status ←
    match ending with
    | .ok status => pure status
    | .error (.exited code) => pure code
    | .error (.leftLoop _) => pure 0
    | .error (.killed signal) => throw (.killed signal)
  modify fun state => { state with status := status }

/-- Run a step in a process of its own, which sees the exported variables. A signal ends
that process only and is reported. -/
def inProcess (step : ShellM Nat) : ShellM Nat := do
  let ending ← apart do
    modify fun state =>
      { state with
        bindings := state.bindings.filter fun entry => state.exported.contains entry.1
        arguments := ["sh"]
        status := 0 }
    step
  match ending with
  | .ok status => pure status
  | .error (.exited code) => pure code
  | .error (.leftLoop _) => pure 0
  | .error (.killed signal) => do
      warn (signalReport signal)
      pure (128 + signal)

/-- Run a step with its output collected instead of written. -/
def collecting (step : ShellM Unit) : ShellM Bytes := do
  let outer := (← get).chunks
  let target := (← get).output
  modify fun state => { state with chunks := [], output := .stream .output }
  inSubshell step
  let chunks := (← get).chunks
  let isOutput := fun entry : Stream × Bytes => entry.1 = .output
  modify fun state =>
    { state with
      chunks := (chunks.filter fun entry => !isOutput entry) ++ outer
      output := target }
  pure ((chunks.reverse.filter isOutput).flatMap Prod.snd)

/-! ## Starting a shell -/

/-- Runs a command. -/
abbrev RunCommand := Command → ShellM Unit

/-- Run a line. What cannot be read is reported and not run at all. -/
def runLine
    (runCommand : RunCommand)
    (line : String) : ShellM Nat := do
  match Command.ofLine line with
  | .error problem => do
      complain ("Syntax error: " ++ problem.message)
      pure 2
  | .ok command => do
      runCommand command
      pure (← get).status

/-- Start a shell with its arguments: a line, or the path of a file with commands. -/
def start
    (runCommand : RunCommand)
    (arguments : List String) : ShellM Nat := do
  match arguments with
  | [] => pure 0
  | ["-c"] => do
      warn "sh: 0: -c requires an argument\n"
      pure 2
  | "-c" :: line :: rest => do
      modify fun state => { state with arguments := if rest.isEmpty then ["sh"] else rest }
      runLine runCommand line
  | path :: rest => do
      match (← get).files.readFile path with
      | .error _ => do
          warn ("sh: 0: cannot open " ++ path ++ ": No such file\n")
          pure 2
      | .ok content => do
          modify fun state => { state with arguments := path :: rest }
          runLine runCommand (Utf8.decodeLossy content)

/-! ## Commands -/

/-- Find an installed program by its name. A shell can be started like every other one. -/
def findProgram?
    (runCommand : RunCommand)
    (name : String)
    (arguments : List String) : Option (ShellM Nat) :=
  if name = "sh" then some (inProcess (start runCommand arguments))
  else program? name arguments

/-- Run the command of a name, which may be the path of a file. Of the files only the
installed programs can be run. -/
def runNamed
    (runCommand : RunCommand)
    (name : String)
    (arguments : List String) : ShellM Nat := do
  let step? :=
    match installedName? name with
    | some installed => findProgram? runCommand installed arguments
    | none => command? name arguments <|> findProgram? runCommand name arguments
  match step? with
  | some step => step
  | none =>
      if name.toList.contains '/' && (← get).files.leads name then
        complain (name ++ ": Permission denied")
        pure 126
      else
        complain (name ++ ": not found")
        pure 127

/-- Run a command that consists of words, after its redirections. Without words the status
stays that of the commands in them. -/
def runWords
    (runCommand : RunCommand)
    (unchanged : Nat)
    (words : List String) : ShellM Unit := do
  let status ←
    match words with
    | [] => pure unchanged
    | "exec" :: [] => pure 0
    | "exec" :: name :: arguments => do
        match findProgram? runCommand name arguments with
        | some step => throw (.exited (← step))
        | none => do
            complain ("exec: " ++ name ++ ": not found")
            throw (.exited 127)
    | "eval" :: texts => runLine runCommand (String.intercalate " " texts)
    | name :: arguments => runNamed runCommand name arguments
  modify fun state => { state with status := status }

/-- Whether a word holds commands. -/
def holdsCommands (word : Word) : Bool :=
  word.any fun piece => piece matches .commands _ _

/-- Give variables their values. -/
def assignAll
    (substitute : Substitute)
    (assignments : List (String × Word)) : ShellM Unit := do
  for (name, value) in assignments do
    let text ← plainText substitute value
    modify fun state => state.assign name text

/-- Run a simple command. Redirections hold for it alone, unless it is an `exec` without a
program, and so do assignments in front of words. -/
def runSimple
    (runCommand : RunCommand)
    (substitute : Substitute)
    (assignments : List (String × Word))
    (words : List Word)
    (redirects : List Redirect) : ShellM Unit := do
  let words ← fieldsOf substitute words
  let before ← get
  assignAll substitute assignments
  if !words.isEmpty then
    modify fun state =>
      { state with exported := assignments.map Prod.fst ++ state.exported }
  let status := (← get).status
  let unchanged := if assignments.any fun entry => holdsCommands entry.2 then status else 0
  if ← redirectAll substitute redirects then
    runWords runCommand unchanged words
  else
    modify fun state => { state with status := 2 }
  if words ≠ ["exec"] then
    modify fun state =>
      { state with
        output := before.output
        errors := before.errors
        input := if redirects.isEmpty then state.input else before.input }
  if !words.isEmpty && !assignments.isEmpty then
    modify fun state =>
      { state with bindings := before.bindings, exported := before.exported }

/-- Run the body of a loop once. The answer tells whether the loop goes on. -/
def runRound (body : ShellM Unit) : ShellM Bool :=
  tryCatch
    (do
      body
      pure true)
    fun stop =>
      match stop with
      | .leftLoop goesOn => do
          modify fun state => { state with status := 0 }
          pure goesOn
      | stop => throw stop

/-- Run a body for each value of a variable. -/
def runEach
    (name : String)
    (body : ShellM Unit) : List String → ShellM Unit
  | [] => pure ()
  | value :: rest => do
      modify fun state => state.assign name value
      if ← runRound body then runEach name body rest

/-- Whether one of the patterns of a clause stands for a text. -/
def anyCovers
    (substitute : Substitute)
    (text : String) : List Word → ShellM Bool
  | [] => pure false
  | pattern :: rest => do
      if (← patternOf substitute pattern).covers text.toList then pure true
      else anyCovers substitute text rest

/-- Run a command. `fuel` limits how deep commands are nested and how often loops
repeat. -/
def run : Nat → Command → ShellM Unit
  | 0, _ => throw (.exited 2)
  | fuel + 1, command => do
      let substitute : Substitute := fun line => do
        match Command.ofLine line with
        | .error _ => pure ""
        | .ok command =>
            pure (dropLineEnds (Utf8.decodeLossy (← collecting (run fuel command))))
      match command with
      | .skip => pure ()
      | .simple assignments words redirects =>
          runSimple (run fuel) substitute assignments words redirects
      | .pipe left right => do
          let bytes ← collecting (run fuel left)
          inSubshell do
            modify fun state => { state with input := bytes }
            run fuel right
      | .negate command => do
          run fuel command
          modify fun state => { state with status := statusOf (state.status ≠ 0) }
      | .both left right => do
          run fuel left
          if (← get).status = 0 then run fuel right
      | .either left right => do
          run fuel left
          if (← get).status ≠ 0 then run fuel right
      | .sequence first second => do
          run fuel first
          run fuel second
      | .loop runsWhile condition body => do
          let before := (← get).status
          run fuel condition
          if ((← get).status = 0) = runsWhile then
            if ← runRound (run fuel body) then run fuel (.loop runsWhile condition body)
          else modify fun state => { state with status := if before = 0 then 0 else before }
      | .branch condition yes no => do
          run fuel condition
          if (← get).status = 0 then run fuel yes
          else do
            modify fun state => { state with status := 0 }
            run fuel no
      | .each name words body => do
          runEach name (run fuel body) (← fieldsOf substitute words)
      | .choose word patterns yes no => do
          let text ← plainText substitute word
          if ← anyCovers substitute text patterns then run fuel yes else run fuel no
      | .subshell body => inSubshell (run fuel body)

/-- Enough fuel for lines that end. -/
def enough : Nat := 100000

/-- Start a shell with its arguments. -/
def shell (arguments : List String) : ShellM Nat :=
  start (run enough) arguments

end Shell
end ScriptHost
