import NodeShader.GraphFile.Build
import NodeShader.Report.Compile
import NodeShader.Report.Graph

/-!
# Reports of graph files

The graph of a file with its names and options, or the problems of the step that found some.
-/

namespace NodeShader.Report

def span (s : Config.Span) : Report :=
  nats [s.start.line, s.start.column, s.stop.line, s.stop.column]

def problem (p : GraphFile.Problem) : Report :=
  let detail : List (String × Report) := (p.detail?.map fun d => ("detail", text d)).toList
  let place : List (String × Report) := (p.place?.map fun s => ("range", span s)).toList
  record ([("summary", text p.summary)] ++ detail ++ place)

def graphFileError : GraphFile.Error → Report
  | .malformed => record [("error", "hcl"), ("phase", "parse")]
  | .content ps => record [("error", "hcl"), ("phase", "decode"), ("diagnostics", each problem ps)]
  | .graph ps => record [("error", "hcl"), ("phase", "build"), ("diagnostics", each problem ps)]

/-- What is reported of a file: its graph, or the compilation of its output. -/
def graphFile (f : GraphFile) (compiled : Option Wanted) : Report :=
  let o := f.applyOptions .standard
  let names := f.nodes.mergeSort fun a b => a.1 ≤ b.1
  let result : String × Report :=
    match compiled with
    | some w => ("result", compile w f.graph f.output o)
    | none => ("graph", graph f.graph)
  record [("output", indexOf f.graph f.output),
    ("nodes", each (fun n => list [text n.1, id n.2]) names),
    ("options", record [("fold_constants", o.foldConstants), ("max_search_nodes", o.maxSearchNodes)]),
    result]

/-- The report of a file's text. -/
def graphFileText (source : String) (compiled : Option Wanted) : Report :=
  match GraphFile.parse source with
  | .ok f => graphFile f compiled
  | .error e => graphFileError e

def loadError : GraphFile.LoadError → Report
  | .unreadable e => error "error" (GraphFile.unreadableMessage e.message)
  | .file e => graphFileError e

/-- The report of a file on disk. -/
def loadedGraphFile (d : Disk) (path : String) (compiled : Option Wanted) : Report :=
  match GraphFile.load d path with
  | .ok f => graphFile f compiled
  | .error e => loadError e

end NodeShader.Report
