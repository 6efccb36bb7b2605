import NodeShader.Command.Run

/-!
# The command line program

Runs a command line against the machine it is on: files, environment and standard output. What is to be
done is decided in `NodeShader.Command`.
-/

namespace NodeShader.Command

/-- Why an operation on the machine failed. -/
def failureReason (operation path : String) (e : IO.Error) : String :=
  let reason :=
    match e with
    | .noFileOrDirectory .. => DiskFault.missing.message
    | .inappropriateType .. => DiskFault.notDirectory.message
    | .alreadyExists .. => DiskFault.taken.message
    | e => toString e
  s!"{operation} {path}: {reason}"

/-- An operation, with the reason if it fails. -/
def attempt {α : Type} (operation path : String) (act : IO α) : IO (Except String α) := do
  match ← act.toBaseIO with
  | .ok a => return .ok a
  | .error e => return .error (failureReason operation path e)

/-- Does one action, or tells why it cannot be done. -/
def performAction : Action → IO (Except CommandError Unit)
  | .print s => do
    IO.print s
    return .ok ()
  | .makeDirectory path => do
    let made ← attempt "mkdir" path (IO.FS.createDirAll path)
    return made.mapError (.disk "failed to create output directory")
  | .write purpose path content => do
    let written ← attempt "open" path (IO.FS.writeBinFile path ⟨content.toArray⟩)
    return written.mapError (.disk purpose)
  | .stop e => return .error e

/-- Does actions one after the other, up to the first that fails. -/
def performActions : List Action → IO (Except CommandError Unit)
  | [] => return .ok ()
  | action :: rest => do
    match ← performAction action with
    | .ok () => performActions rest
    | .error e => return .error e

/-- What the machine gives to commands. -/
def machineEnvironment : IO Environment := do
  let accounts ← attempt "open" "/etc/passwd" (IO.FS.readFile "/etc/passwd")
  return {
    homes := ⟨← IO.getEnv "HOME", Path.homeIn (accounts.toOption.getD "")⟩
    options := ← IO.getEnv Options.variableName }

/-- Runs a request. -/
def performRequest : Request → IO (Except CommandError Unit)
  | .help => do
    IO.println s!"usage: {programName} compile|wedge [flags] <graph file>"
    return .ok ()
  | .run verb path a => do
    let env ← machineEnvironment
    match Path.expandHome env.homes path with
    | .error e => return .error (.home e)
    | .ok path =>
      let content ← attempt "open" path (IO.FS.readBinFile path)
      performActions (actions env verb path a (content.map (·.toList)))

end NodeShader.Command

/-- Runs the command line; the exit code tells whether it succeeded. -/
def main (args : List String) : IO UInt32 := do
  let result ←
    match NodeShader.Command.Request.parse args with
    | .error e => pure (.error (.usage e))
    | .ok request => NodeShader.Command.performRequest request
  match result with
  | .ok () => return 0
  | .error e =>
    IO.eprintln e.message
    return 1
