import NodeShader.Metal.Tables
import NodeShader.Schedule
import NodeShader.Typing.Resolve

/-!
# Failures

A failure is a chain: a first cause, messages put in front of it, and at most one classification that
says what kind of compilation error it is and which node it belongs to. Classifying a classified
failure leaves its classification as it is.
-/

namespace NodeShader

/-- The kinds of compilation errors; a code outside the four is `other`. -/
inductive FailureKind where
  | typeResolution
  | structural
  | unsupported
  | backend
  | other (code : Int)
  deriving DecidableEq, Repr

namespace FailureKind

def ofCode : Int → FailureKind
  | 1 => typeResolution
  | 2 => structural
  | 3 => unsupported
  | 4 => backend
  | code => other code

def code : FailureKind → Int
  | typeResolution => 1
  | structural => 2
  | unsupported => 3
  | backend => 4
  | other code => code

def name : FailureKind → String
  | typeResolution => "type resolution failure"
  | structural => "structural error"
  | unsupported => "unsupported construct"
  | backend => "backend compilation error"
  | other code => s!"Kind({code})"

end FailureKind

/-- A stage that could not run because one it needs failed. -/
structure DependencyError where
  stage : NodeId
  needed : NodeId
  deriving DecidableEq

def DependencyError.message (e : DependencyError) : String :=
  s!"stage {e.stage} not run: dependency {e.needed} failed"

inductive Failure where
  | plain (message : String)
  | fault
  | unsatisfiable (e : Unsatisfiable)
  | cycle (e : CycleError)
  | malformed (e : Spirv.ParseError)
  | dependency (e : DependencyError)
  | metal (e : Metal.Error)
  | classified (kind : FailureKind) (node : Option NodeId) (cause : Option Failure)
  | annotated (message : String) (cause : Failure)

/-- The kind of a failure and the node it belongs to. -/
structure Classification where
  kind : FailureKind
  node : Option NodeId
  deriving DecidableEq

namespace Failure

def message : Failure → String
  | plain message => message
  | fault => Fault.dangling.message
  | unsatisfiable e => e.message
  | cycle e => e.message
  | malformed e => e.message
  | dependency e => e.message
  | metal e => e.message
  | classified kind node cause =>
    let place :=
      match node with
      | some id => s!" at node {id}"
      | none => ""
    let reason :=
      match cause with
      | some c => c.message
      | none => "<nil>"
    kind.name ++ place ++ ": " ++ reason
  | annotated text cause => text ++ ": " ++ cause.message

/-- What is directly behind a failure. -/
def cause? : Failure → Option Failure
  | classified _ _ cause => cause
  | annotated _ cause => some cause
  | metal ⟨_, .malformed e⟩ => some (malformed e)
  | metal ⟨_, .missingOperand⟩ => some fault
  | metal ⟨_, .rejected reason⟩ => some (plain reason)
  | _ => none

/-- The outermost part of the chain that is a classified failure, itself included. -/
def classifiedPart? : Failure → Option Failure
  | f@(classified ..) => some f
  | annotated _ cause => cause.classifiedPart?
  | _ => none

/-- The classification of the chain. -/
def classification? (f : Failure) : Option Classification :=
  match f.classifiedPart? with
  | some (classified kind node _) => some ⟨kind, node⟩
  | _ => none

/-- The first cause of the chain. -/
def origin : Failure → Failure
  | classified _ _ (some cause) => cause.origin
  | annotated _ cause => cause.origin
  | metal ⟨_, .malformed e⟩ => malformed e
  | metal ⟨_, .missingOperand⟩ => fault
  | f => f

/-- The part of the chain, the outermost, that satisfies a test. -/
def find? (test : Failure → Bool) : Failure → Option Failure
  | f@(classified _ _ (some cause)) => if test f then some f else cause.find? test
  | f@(annotated _ cause) => if test f then some f else cause.find? test
  | f => if test f then some f else none

/-- Classifies a failure (`none` being no failure) unless it is classified. -/
def classify (kind : FailureKind) (node : Option NodeId) (f : Option Failure) : Failure :=
  match f.bind classifiedPart? with
  | some typed => typed
  | none => classified kind node f

/-- A classified failure with a message of its own. -/
def ofMessage (kind : FailureKind) (node : Option NodeId) (message : String) : Failure :=
  classified kind node (some (plain message))

def ofTyping : TypingError → Failure
  | .unsatisfiable e => unsatisfiable e
  | .constraints (.noRule kind) => plain s!"typeresolve: no constraints defined for node kind {kind}"
  | .constraints (.fault _) => fault

def ofCheck : CheckError → Failure
  | .constraints (.fault _) => fault
  | e => plain e.message

end Failure

end NodeShader
