import NodeShader.Command.Run
import NodeShader.Digest.Sha
import NodeShader.Report.GraphFile

/-!
# Reports of commands

What a command printed, line by line, the error it ended with, and the files it made.
-/

namespace NodeShader.Report

def commandError : Command.CommandError → Report
  | .file e => graphFileError e
  | .compile f => compileFailure f
  | e => error "error" e.message

/-- The lines of a text, which may end with a line feed. -/
def lines (s : String) : List String :=
  let s := if s.endsWith "\n" then (s.dropEnd 1).toString else s
  s.splitOn "\n"

def diskFile (place : Place) (content : List UInt8) : Report :=
  list [text ("/".intercalate place), int content.length, bytes (Digest.Sha256.digest content)]

/-- The outcome of a command, without the files that were there before. The lines of unordered output
are given in the order of their bytes. -/
def command (o : Command.Outcome) (before : List Place) (unordered : Bool) : Report :=
  let printed := lines o.output
  let printed := if unordered then printed.mergeSort fun a b => a ≤ b else printed
  let made := o.disk.listing.filter fun f => !before.contains f.1
  record [("stdout", texts printed), ("error", optional commandError o.error),
    ("files", each (fun f => diskFile f.1 f.2) made)]

end NodeShader.Report
