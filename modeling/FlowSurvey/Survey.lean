import FlowSurvey.Catalog
import FlowSurvey.Location
import FlowSurvey.Selection
import FlowSurvey.Walk

/-!
# Surveys

A survey reads the source files below a root one after another and catalogues the
flows that they declare.  A file that cannot be read or is not valid contributes a
diagnostic and nothing else.  The number for the next declaration is handed from
file to file, and from survey to survey, so surveys of parts can be put together.
-/

namespace FlowSurvey

structure Outcome where
  catalog : Catalog := {}
  filesScanned : Nat := 0
  diagnostics : List Diagnostic := []
  /--
  The number for the next declaration.  All natural numbers are there; that numbers end at the
  largest unsigned integer of 64 bits, and what comes behind it, is left out.
  -/
  next : Nat := 0

namespace Outcome

def empty : Outcome := {}

def isClean (o : Outcome) : Bool :=
  o.diagnostics.isEmpty

def merge (o other : Outcome) : Outcome where
  catalog := o.catalog.merge other.catalog
  filesScanned := o.filesScanned + other.filesScanned
  diagnostics := o.diagnostics ++ other.diagnostics
  next := max o.next other.next

end Outcome

def Collision.diagnostic (c : Collision) : Diagnostic :=
  ⟨c.dropped, .collision,
    "duplicate flow id '" ++ c.id ++ "', kept the record from " ++ c.kept⟩

/-- The diagnostics of the files, and those of the flows that were not let in. -/
def Outcome.allDiagnostics (o : Outcome) : List Diagnostic :=
  o.diagnostics ++ o.catalog.collisions.map Collision.diagnostic

structure Survey where
  fs : FileSystem
  root : String
  platform : Platform
  config : Config := {}

def Failure.stage : Failure → Stage
  | .source _ => .parse
  | _ => .read

namespace Survey

/-- The root without links, if it is a directory. -/
def resolvedRoot (s : Survey) : Except FileFailure String :=
  match s.fs.resolve s.root with
  | .error _ => .error (.directoryNotFound s.root)
  | .ok trail =>
      match FileSystem.entryAt s.fs.root trail with
      | .directory _ => .ok (FileSystem.pathOf trail)
      | _ => .error (.notADirectory s.root)

def readSource (fs : FileSystem) (path : String) : Except Failure Syntax.Node :=
  match fs.readText path with
  | .error fault => .error (.file (.unreadable path fault))
  | .ok text => (parseSource path text).mapError .source

def step (fs : FileSystem) (platform : Platform) (root : String) (o : Outcome) (path : String) :
    Outcome :=
  match readSource fs path with
  | .ok tree =>
      let flows := flowsOfFile platform root path tree o.next
      { o with
        catalog := o.catalog.insertAll flows
        filesScanned := o.filesScanned + 1
        next := o.next + flows.length }
  | .error failure =>
      { o with
        filesScanned := o.filesScanned + 1
        diagnostics := o.diagnostics ++ [⟨path, failure.stage, failure.message⟩] }

/--
Reads the given files, numbering their declarations from `start`.  What becomes of numbers past
the largest unsigned integer of 64 bits is left out: here they go on.
-/
def scanFiles (s : Survey) (files : List String) (start : Nat) : Except FileFailure Outcome := do
  let root ← s.resolvedRoot
  return files.foldl (step s.fs s.platform root) { next := start }

def visits (s : Survey) : Except FileFailure (List Visit) := do
  Walk.visits s.fs (← s.resolvedRoot) s.config

def scan (s : Survey) : Except FileFailure Outcome := do
  let visits ← s.visits
  let outcome ← s.scanFiles (sourcesOf visits) 0
  return { outcome with diagnostics := diagnosticsOf visits ++ outcome.diagnostics }

/-- The flows of a scan that a selection asks for. -/
def findFlows (s : Survey) (selection : FlowSelection) : Except FileFailure (List Flow) :=
  s.scan.map fun outcome => selection.apply outcome.catalog.flows.toList

end Survey

end FlowSurvey
