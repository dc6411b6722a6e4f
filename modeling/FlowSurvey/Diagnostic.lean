/-!
# Diagnostics

A survey goes on when something is wrong with a single file.  What was wrong is
kept as a diagnostic, with the stage at which it was found.
-/

namespace FlowSurvey

inductive Stage where
  | walk
  | read
  | parse
  | collision
  deriving DecidableEq, Repr

def Stage.name : Stage → String
  | .walk => "walk"
  | .read => "read"
  | .parse => "parse"
  | .collision => "collision"

structure Diagnostic where
  path : String
  stage : Stage
  message : String
  deriving DecidableEq, Repr

def Diagnostic.render (d : Diagnostic) : String :=
  "[" ++ d.stage.name ++ "] " ++ d.path ++ ": " ++ d.message

end FlowSurvey
