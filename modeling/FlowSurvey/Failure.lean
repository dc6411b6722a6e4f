import FlowSurvey.Config
import FlowSurvey.FileSystem
import FlowSurvey.Json.Reader
import FlowSurvey.Record.Decode
import FlowSurvey.Record.DeploymentName
import FlowSurvey.Syntax.Module

/-!
# Failures

A failure is a cause, not a text: its wording is computed from it.  Some failures
have a further cause beneath them, so the wording is a chain of texts, the outer
one first.
-/

namespace FlowSurvey

inductive FileFailure where
  | directoryNotFound (path : String)
  | notADirectory (path : String)
  | unreadable (path : String) (fault : ReadFault)
  | tooLarge (path : String) (size limit : Nat)
  deriving DecidableEq, Repr

def FileFailure.chain : FileFailure → List String
  | .directoryNotFound path => ["directory not found: " ++ path]
  | .notADirectory path => ["not a directory: " ++ path]
  | .unreadable path fault => ["failed to read file '" ++ path ++ "'", fault.message]
  | .tooLarge path size limit =>
      ["file too large '" ++ path ++ "': " ++ toString size ++ " bytes exceeds " ++ toString limit]

/--
Why source has no valid tree.  The first two reasons are those of a parser that has to be set
up for a language, or that may give up.  They are here for their wording only: `Syntax.parse`
needs no setting up and gives every text a tree, so `parseSource` never has them.
-/
inductive SourceFailure where
  | setupFailed (language : String)
  | unparsable (path : String)
  /-- Lines and columns count from one. -/
  | invalid (path : String) (line column : Nat) (message : String)
  deriving DecidableEq, Repr

def SourceFailure.chain : SourceFailure → List String
  | .setupFailed language => ["failed to set parser language: " ++ language]
  | .unparsable path => ["failed to parse source code in " ++ path]
  | .invalid path line column message =>
      ["syntax error in " ++ path ++ " at line " ++ toString line ++ ", column " ++
        toString column ++ ": " ++ message]

def SourceFailure.ofSyntaxError (path : String) (e : Syntax.SyntaxError) : SourceFailure :=
  .invalid path (e.place.row + 1) (e.place.column + 1) e.offence.message

def parseSource (path text : String) : Except SourceFailure Syntax.Node :=
  match Syntax.parseValid text with
  | .ok tree => .ok tree
  | .error e => .error (.ofSyntaxError path e)

inductive Entity where
  | flow
  | deployment
  deriving DecidableEq, Repr

def Entity.label : Entity → String
  | .flow => "FlowDetails"
  | .deployment => "DeploymentDetails"

/-- The kind of a value, with its article. -/
def Json.kindLabel : Json → String
  | .null => "null"
  | .bool _ => "a boolean"
  | .whole _ | .float _ => "a number"
  | .str _ => "a string"
  | .arr _ => "an array"
  | .obj _ => "an object"

inductive RecordFailure where
  | notAnObject (entity : Entity) (found : String)
  | notAList (entity : Entity) (found : String)
  /-- The text is no document at all. -/
  | malformed (entity : Entity) (error : Json.ReadError)
  | mismatched (entity : Entity) (mismatch : Mismatch)
  | deploymentName (name : String)

def RecordFailure.chain : RecordFailure → List String
  | .notAnObject entity found =>
      ["expected a JSON object for " ++ entity.label ++ ", found " ++ found]
  | .notAList entity found =>
      ["expected a JSON array of " ++ entity.label ++ " records, found " ++ found]
  | .malformed entity error => ["invalid " ++ entity.label ++ " document", error.message]
  | .mismatched entity mismatch => ["invalid " ++ entity.label ++ " document", mismatch.message]
  | .deploymentName name =>
      ["invalid deployment name '" ++ name ++ "': expected PROJECT--BRANCH--FLOW--ENV"]

/-- The parts of a name, or the text itself as what is wrong. -/
def DeploymentName.parse (text : String) : Except RecordFailure DeploymentName :=
  match parse? text with
  | some name => .ok name
  | none => .error (.deploymentName text)

inductive ConfigFailure where
  | unreadable (path : String) (fault : ReadFault)
  | invalid (path : String) (fault : ConfigFault)

def ConfigFailure.chain : ConfigFailure → List String
  | .unreadable path fault => ["failed to read config file '" ++ path ++ "'", fault.message]
  | .invalid path fault => ["invalid config file '" ++ path ++ "'", fault.message]

inductive Failure where
  | file (failure : FileFailure)
  | source (failure : SourceFailure)
  | record (failure : RecordFailure)
  | config (failure : ConfigFailure)

def Failure.chain : Failure → List String
  | .file failure => failure.chain
  | .source failure => failure.chain
  | .record failure => failure.chain
  | .config failure => failure.chain

/-- The text of a failure without its causes. -/
def Failure.summary (failure : Failure) : String :=
  failure.chain.headD ""

def Failure.message (failure : Failure) : String :=
  ": ".intercalate (failure.summary :: failure.chain.tail)

end FlowSurvey
