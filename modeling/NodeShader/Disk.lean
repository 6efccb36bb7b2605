import NodeShader.Text.Basic
import NodeShader.Text.Quoted

/-!
# Paths

Paths with slashes: the shortest equal one, joining, and the home directories that a leading tilde
stands for.
-/

namespace NodeShader.Path

/-- The parts left after dropping empty and `.` parts and letting `..` take away the part before it.
Nothing lies above the top of a rooted path. The parts are kept last first. -/
def reduce (rooted : Bool) (parts : List String) : List String :=
  parts.foldl
    (fun stack part =>
      if part = "" ∨ part = "." then stack
      else if part = ".." then
        match stack with
        | top :: rest => if top = ".." then ".." :: stack else rest
        | [] => if rooted then [] else [".."]
      else part :: stack) []

/-- The shortest path that leads to the same place. -/
def clean (path : String) : String :=
  let rooted := path.startsWith "/"
  let joined := "/".intercalate (reduce rooted (path.splitOn "/")).reverse
  if rooted then "/" ++ joined else if joined = "" then "." else joined

/-- Joins parts, of which empty ones at the front do not count. -/
def join (parts : List String) : String :=
  match parts.dropWhile (· == "") with
  | [] => ""
  | parts => clean ("/".intercalate parts)

/-- Why a home directory is not known. -/
inductive HomeError where
  | undefined (path : String)
  | unknownUser (path user : String)
  deriving DecidableEq, Repr

def HomeError.message : HomeError → String
  | undefined path => s!"failed to find home directory for path {Text.quote path}: $HOME is not defined"
  | unknownUser path user =>
    s!"failed to lookup home directory for user in path {Text.quote path}: user: unknown user {user}"

/-- Where home directories are. -/
structure Homes where
  own : Option String
  ofUser : String → Option String

/-- The home directories in a list of accounts: one a line, with the name first and the home sixth of
the parts between colons. -/
def homeIn (accounts : String) (user : String) : Option String :=
  (accounts.splitOn "\n").findSome? fun line =>
    let parts := line.splitOn ":"
    if parts.head? = some user then parts[5]? else none

/-- Replaces a leading tilde, with a user's name or without, by a home directory. -/
def expandHome (homes : Homes) (path : String) : Except HomeError String :=
  match path.toList with
  | '~' :: rest =>
    let user := String.ofList (rest.takeWhile (· != '/'))
    let below := String.ofList ((rest.dropWhile (· != '/')).drop 1)
    if user = "" then
      match homes.own with
      | some home => if home = "" then .error (.undefined path) else .ok (join [home, below])
      | none => .error (.undefined path)
    else
      match homes.ofUser user with
      | some home => .ok (join [home, below])
      | none => .error (.unknownUser path user)
  | _ => .ok path

end NodeShader.Path

/-!
## A working directory

The files and directories below a working directory, with the operations that commands need and the
faults they can meet: reading a file, writing one, and making a directory with all above it. What lies
above the working directory or at the root exists but is otherwise empty.
-/

namespace NodeShader

/-- Why an operation on a path fails. -/
inductive DiskFault where
  | missing
  | notDirectory
  | isDirectory
  | taken
  | longName
  deriving DecidableEq, Repr

def DiskFault.message : DiskFault → String
  | missing => "no such file or directory"
  | notDirectory => "not a directory"
  | isDirectory => "is a directory"
  | taken => "file exists"
  | longName => "file name too long"

/-- A failed operation and the path it failed on. -/
structure DiskError where
  operation : String
  path : String
  fault : DiskFault
  deriving DecidableEq, Repr

def DiskError.message (e : DiskError) : String := s!"{e.operation} {e.path}: {e.fault.message}"

/-- The names on the way from the working directory. -/
abbrev Place := List String

structure Disk where
  files : List (Place × List UInt8)
  directories : List Place

inductive Entry where
  | absent
  | file (content : List UInt8)
  | directory
  deriving DecidableEq, Repr

namespace Disk

def empty : Disk := ⟨[], []⟩

/-- Whether a place exists without being kept: the working directory, what is above it, the root. -/
def isGiven (p : Place) : Bool := p.all (· == "..") || p == ["/"]

def entry (d : Disk) (p : Place) : Entry :=
  if isGiven p || d.directories.contains p then .directory
  else
    match d.files.lookup p with
    | some content => .file content
    | none => .absent

/-- The longest name of a file, in bytes. -/
def longestName : Nat := 255

/-- The place one name further; the place before it must be a directory. -/
def step (d : Disk) (p : Place) (name : String) : Except DiskFault Place :=
  match d.entry p with
  | .absent => .error .missing
  | .file _ => .error .notDirectory
  | .directory =>
    if longestName < Text.byteLength name then .error .longName
    else if name = "" ∨ name = "." then .ok p
    else if name = ".." then
      .ok (if p = ["/"] then p else if p.all (· == "..") then p ++ [".."] else p.dropLast)
    else .ok (p ++ [name])

/-- The place a path leads to, which may not exist yet. -/
def locate (d : Disk) (path : String) : Except DiskFault Place :=
  if path = "" then .error .missing
  else
    let start : Place := if path.startsWith "/" then ["/"] else []
    (path.splitOn "/").foldlM d.step start

/-- The contents of a file. -/
def read (d : Disk) (path : String) : Except DiskError (List UInt8) :=
  match (d.locate path).map d.entry with
  | .ok (.file content) => .ok content
  | .ok .directory => .error ⟨"read", path, .isDirectory⟩
  | .ok .absent => .error ⟨"open", path, .missing⟩
  | .error fault => .error ⟨"open", path, fault⟩

/-- Writes a file, in place of one that is there. -/
def write (d : Disk) (path : String) (content : List UInt8) : Except DiskError Disk :=
  match d.locate path with
  | .error fault => .error ⟨"open", path, fault⟩
  | .ok p =>
    if d.entry p = .directory then .error ⟨"open", path, .isDirectory⟩
    else .ok { d with files := (p, content) :: d.files.filter fun f => f.1 != p }

/-- Makes one directory, unless it is there. -/
def makeDirectory (d : Disk) (path : String) : Except DiskError Disk :=
  match d.locate path with
  | .error .notDirectory => .error ⟨"mkdir", path, .taken⟩
  | .error fault => .error ⟨"mkdir", path, fault⟩
  | .ok p =>
    match d.entry p with
    | .directory => .ok d
    | .file _ => .error ⟨"mkdir", path, .taken⟩
    | .absent => .ok { d with directories := p :: d.directories }

/-- The path without its last name, empty if there is no other. -/
def parentPath (path : String) : String :=
  let cs := path.toList.reverse.dropWhile (· == '/')
  String.ofList ((cs.dropWhile (· != '/')).drop 1).reverse

/-- Makes a directory and those above it. -/
def makeDirectories (d : Disk) : (fuel : Nat) → (path : String) → Except DiskError Disk
  | 0, path => .error ⟨"mkdir", path, .missing⟩
  | fuel + 1, path =>
    match (d.locate path).map d.entry with
    | .ok .directory => .ok d
    | .ok (.file _) => .error ⟨"mkdir", path, .notDirectory⟩
    | _ =>
      let parent := parentPath path
      if parent = "" then d.makeDirectory path
      else do
        let d ← d.makeDirectories fuel parent
        d.makeDirectory path

/-- Makes a directory and those above it; each parent's path is shorter. -/
def ensureDirectory (d : Disk) (path : String) : Except DiskError Disk :=
  d.makeDirectories (path.length + 1) path

/-- The files below the working directory, directory by directory in the order of names. -/
def listing (d : Disk) : List (Place × List UInt8) :=
  let below := d.files.filter fun f => f.1.head?.all fun name => name != "/" && name != ".."
  below.mergeSort fun a b => !List.lex b.1 a.1 (· < ·)

end Disk

end NodeShader
