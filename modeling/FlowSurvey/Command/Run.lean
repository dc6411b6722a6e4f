import FlowSurvey.Command.Arguments
import FlowSurvey.Record.Document
import FlowSurvey.Selection
import FlowSurvey.Survey
import FlowSurvey.Verbosity

/-!
# Runs

A run reads its arguments and a file system and comes to a result: what is
printed, what is said on the way, and the file system afterwards.  Only the levels
of messages that were asked for are said.

What is said goes up to the level `verbose`.  The lines of the two levels beyond it
tell single steps, each with its place in the program, and are left out, as are these
places in the other lines; a log is complete if no more than `verbose` is asked for.
-/

namespace FlowSurvey

namespace Command

/-- A warning, of the level `normal`, or a note, of the level `verbose`. -/
structure LogLine where
  level : Verbosity
  text : String
  deriving DecidableEq, Repr

/--
The lines up to a level.  Where more than `normal` is asked for a time stands before each line,
of which the blank behind it is kept.
-/
def renderLog (verbosity : Verbosity) (lines : List LogLine) : String :=
  let start := if verbosity.shows .verbose then " " else ""
  let label : Verbosity → String
    | .verbose => " INFO "
    | _ => " WARN "
  renderLines <|
    (lines.filter fun line => verbosity.shows line.level).map fun line =>
      start ++ label line.level ++ line.text

/-- An error with its causes, each on a line; several causes are numbered. -/
def renderError (chain : List String) : String :=
  match chain with
  | [] => "Error: \n"
  | [only] => "Error: " ++ only ++ "\n"
  | [outer, cause] => "Error: " ++ outer ++ "\n\nCaused by:\n    " ++ cause ++ "\n"
  | outer :: causes =>
      "Error: " ++ outer ++ "\n\nCaused by:\n" ++
        renderLines (causes.zipIdx.map fun (cause, i) => "    " ++ toString i ++ ": " ++ cause)

structure Delivery where
  printed : String := ""
  written : Option (String × String) := none
  fs : FileSystem

structure Result where
  exitCode : UInt32
  /-- The lines up to the level `verbose`, and the error if there is one. -/
  log : String := ""
  delivery : Delivery

/-- What a task comes to: the log, and an error with its causes or a report. -/
structure Report where
  log : List LogLine := []
  ending : Except (List String) Delivery

def failed (chain : List String) (log : List LogLine := []) : Report :=
  ⟨log, .error chain⟩

/-! ## Flows -/

def warning (text : String) : LogLine := ⟨.normal, text⟩

def info (text : String) : LogLine := ⟨.verbose, text⟩

def visitWarnings (visits : List Visit) : List LogLine :=
  visits.filterMap fun
    | .skipped fault =>
        some (warning ("skipping unreadable entry path=" ++ fault.path ++ " error=" ++ fault.message))
    | _ => none

def collisionWarning (c : Collision) : LogLine :=
  warning ("duplicate flow id, keeping the first record id=" ++ c.id ++ " kept=" ++ c.kept ++
    " dropped=" ++ c.dropped)

def fileWarnings (diagnostics : List Diagnostic) : List LogLine :=
  diagnostics.filterMap fun d =>
    if d.stage = .walk then none
    else some (warning ("skipping file file_path=" ++ d.path ++ " error=" ++ d.message))

def scanLog (a : FlowsArguments) (visits : List Visit) (o : Outcome) : List LogLine :=
  visitWarnings visits ++ fileWarnings o.diagnostics ++ o.catalog.collisions.map collisionWarning ++
    [info ("scan complete root=" ++ a.path ++ " platform=\"" ++ a.platform.name ++ "\" files=" ++
      toString o.filesScanned ++ " flows=" ++ toString o.catalog.size ++ " diagnostics=" ++
      toString o.diagnostics.length)] ++
    o.allDiagnostics.map fun d => warning d.render

def loadConfig (fs : FileSystem) (path : String) : Except ConfigFailure Config :=
  match fs.readText path with
  | .error fault => .error (.unreadable path fault)
  | .ok text => (Config.parse text).mapError (.invalid path)

def loadRefetch (fs : FileSystem) (path : String) : Except (List String) (List Flow) :=
  match fs.readText path with
  | .error fault => .error ["Cannot read refetch file: " ++ path, fault.message]
  | .ok text =>
      (flowsOfText text).mapError fun failure =>
        ("Invalid refetch file: " ++ path) :: failure.chain

/-- Only groups that are given are a criterion. -/
def given? (values : List α) : Option (List α) :=
  if values.isEmpty then none else some values

/-- The survey of the flows that the arguments ask for, and their selection. -/
def prepareFlows (fs : FileSystem) (a : FlowsArguments) :
    Except (List String) (Survey × FlowSelection) := do
  let config ← (a.config.mapM (loadConfig fs)).mapError ConfigFailure.chain
  let flows ← a.refetch.mapM (loadRefetch fs)
  return (⟨fs, a.path, a.platform, config.getD {}⟩, ⟨flows, given? a.groups⟩)

def deliver (fs : FileSystem) (outputFile : Option String) (text : String) :
    Except (List String) Delivery :=
  match outputFile with
  | none => .ok { printed := text ++ "\n", fs }
  | some path =>
      match fs.writeText path text with
      | .ok after => .ok { written := some (path, text), fs := after }
      | .error fault => .error ["Cannot write output file: " ++ path, fault.message]

def runFlows (fs : FileSystem) (a : FlowsArguments) : Report :=
  match prepareFlows fs a with
  | .error chain => failed chain
  | .ok (survey, selection) =>
      match (do return (← survey.visits, ← survey.scan, ← survey.findFlows selection) :
          Except FileFailure _) with
      | .error failure => failed (("Failed to scan " ++ a.path) :: failure.chain)
      | .ok (visits, outcome, flows) =>
          let log := scanLog a visits outcome ++
            [info ("selected flows flows=" ++ toString flows.length)]
          ⟨log, deliver fs a.outputFile (renderFlows a.format flows)⟩

/-! ## Deployments -/

def loadDeployments (fs : FileSystem) (path : String) : Except Failure (List Deployment) :=
  match fs.readText path with
  | .error fault => .error (.file (.unreadable path fault))
  | .ok text => (deploymentsOfText text).mapError .record

/-- The criteria of the options; a reference carries only what is compared. -/
def deploymentSelection (a : DeploymentsArguments) : DeploymentSelection where
  deployments := given? (a.ids.map fun id => { id })
  flows := given? (a.flows.map fun name => Flow.named name "" "" "")
  groups := given? a.groups

def runDeployments (fs : FileSystem) (a : DeploymentsArguments) : Report :=
  match loadDeployments fs a.file with
  | .error failure => failed (("Failed to load deployments from " ++ a.file) :: failure.chain)
  | .ok deployments =>
      let selected := (deploymentSelection a).apply deployments
      ⟨[], deliver fs none (renderDeployments a.format selected)⟩

/-! ## Any task -/

def runTask (fs : FileSystem) (task : Task) : Report :=
  match task.validate fs with
  | .error problem => failed ["Invalid arguments", problem]
  | .ok () =>
      match task with
      | .flows a => runFlows fs a
      | .deployments a => runDeployments fs a

def UsageError.exitCode : UsageError → UInt32
  | .help => 0
  | _ => 2

def run (fs : FileSystem) (argv : List String) : Result :=
  match parse argv with
  | .error usage => { exitCode := usage.exitCode, delivery := { fs } }
  | .ok arguments =>
      let report := runTask fs arguments.task
      let log := renderLog (Verbosity.ofFlags arguments.verbose arguments.quiet) report.log
      match report.ending with
      | .ok delivery => { exitCode := 0, log, delivery }
      | .error chain => { exitCode := 1, log := log ++ renderError chain, delivery := { fs } }

end Command

end FlowSurvey
