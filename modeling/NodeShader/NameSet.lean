/-!
# Sets of names

A set is kept as its names in ascending order without repetition, so equal sets are equal values.
-/

namespace NodeShader

structure NameSet where
  names : List String
  deriving DecidableEq, Repr

namespace NameSet

def empty : NameSet := ⟨[]⟩

def has (s : NameSet) (name : String) : Bool := s.names.contains name

/-- Inserts into an ascending list. -/
def insertName (name : String) : List String → List String
  | [] => [name]
  | n :: rest =>
    if name = n then n :: rest
    else if name < n then name :: n :: rest
    else n :: insertName name rest

def insert (s : NameSet) (name : String) : NameSet := ⟨insertName name s.names⟩

def insertAll (s : NameSet) (names : List String) : NameSet := names.foldl insert s

def ofList (names : List String) : NameSet := empty.insertAll names

def union (s t : NameSet) : NameSet := s.insertAll t.names

/-- The names of `s` that are not in `t`. -/
def sub (s t : NameSet) : NameSet := ⟨s.names.filter fun n => !t.has n⟩

/-- The only name of a set that has one. -/
def single? (s : NameSet) : Option String :=
  match s.names with
  | [n] => some n
  | _ => none

/-- The names by length in bytes, then by name. -/
def byLength (s : NameSet) : List String :=
  s.names.mergeSort fun a b =>
    a.utf8ByteSize < b.utf8ByteSize || (a.utf8ByteSize == b.utf8ByteSize && a ≤ b)

end NameSet

end NodeShader
