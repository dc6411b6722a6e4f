import FlowSurvey.FileSystem
import FlowSurvey.Platform
import FlowSurvey.Report

/-!
# Arguments

The command line names a command and gives options before or behind its name.  The
value of an option stands behind it or is attached to it.  A value that stands
behind its option is looked at only when the next option or the end comes, so
something unknown in between is reported first.
-/

namespace FlowSurvey

namespace Command

/-- Why a command line is not understood, or only help is asked for. -/
inductive UsageError where
  | unknownArgument
  | invalidValue
  | invalidSubcommand
  | missingRequiredArgument
  | argumentConflict
  | tooManyValues
  | missingSubcommand
  | help
  | nothingGiven
  deriving DecidableEq, Repr

inductive OptionName where
  | verbose | quiet | help
  | path | platform | group | refetch | config | format | outputFile
  | file | id | flow
  deriving DecidableEq, Repr

namespace OptionName

def long : OptionName → String
  | .verbose => "verbose"
  | .quiet => "quiet"
  | .help => "help"
  | .path => "path"
  | .platform => "platform"
  | .group => "group"
  | .refetch => "refetch"
  | .config => "config"
  | .format => "format"
  | .outputFile => "output-file"
  | .file => "file"
  | .id => "id"
  | .flow => "flow"

def short? : OptionName → Option Char
  | .verbose => some 'v'
  | .quiet => some 'q'
  | .help => some 'h'
  | .format => some 'f'
  | .outputFile => some 'O'
  | _ => none

def takesValue : OptionName → Bool
  | .verbose | .quiet | .help => false
  | _ => true

def repeats : OptionName → Bool
  | .verbose | .group | .id | .flow => true
  | _ => false

def accepts (name : OptionName) (value : String) : Bool :=
  match name with
  | .path | .refetch | .config | .outputFile | .file => !value.isEmpty
  | .platform => (Platform.ofName? value).isSome
  | .format => (ReportFormat.ofName? value).isSome
  | _ => true

end OptionName

inductive Level where
  | top
  | flows
  | deployments
  deriving DecidableEq, Repr

def Level.options : Level → List OptionName
  | .top => [.verbose, .quiet, .help]
  | .flows =>
      [.path, .platform, .group, .refetch, .config, .format, .outputFile, .verbose, .quiet, .help]
  | .deployments => [.file, .id, .flow, .group, .format, .verbose, .quiet, .help]

def Level.ofName? : String → Option Level
  | "flows" => some .flows
  | "deployments" => some .deployments
  | _ => none

structure Given where
  options : List (OptionName × String) := []
  /-- The last option, whose value may still have to come or has not been looked at. -/
  pending : Option (OptionName × Option String) := none

namespace Given

def has (g : Given) (name : OptionName) : Bool :=
  g.options.any fun option => option.1 = name

def accept (g : Given) (name : OptionName) (value : String) : Except UsageError Given :=
  if name = .help then .error .help
  else if g.has name && !name.repeats then .error .argumentConflict
  else if name.accepts value then .ok { g with options := g.options ++ [(name, value)] }
  else .error .invalidValue

def settle (g : Given) : Except UsageError Given :=
  match g.pending with
  | none => .ok g
  | some (_, none) => .error .invalidValue
  | some (name, some value) => { g with pending := none }.accept name value

/-- An option comes whose value is attached, or which takes none. -/
def take (g : Given) (name : OptionName) (value : String) : Except UsageError Given := do
  (← g.settle).accept name value

/-- An option comes whose value has to follow. -/
def await (g : Given) (name : OptionName) : Except UsageError Given := do
  return { ← g.settle with pending := some (name, none) }

def awaitsValue (g : Given) : Bool :=
  g.pending.any fun option => option.2.isNone

def values (g : Given) (name : OptionName) : List String :=
  (g.options.filter fun option => option.1 = name).map Prod.snd

def value? (g : Given) (name : OptionName) : Option String :=
  (g.values name).head?

end Given

/-- An option by its long name, with what is attached to it. -/
def readLong (level : Level) (g : Given) (text : List Char) : Except UsageError Given :=
  let name := String.ofList (text.takeWhile (· ≠ '='))
  let attached :=
    match text.dropWhile (· ≠ '=') with
    | _ :: value => some (String.ofList value)
    | [] => none
  match level.options.find? fun option => option.long == name with
  | none => .error .unknownArgument
  | some option =>
      match option.takesValue, attached with
      | true, some value => g.take option value
      | true, none => g.await option
      | false, some _ => .error .tooManyValues
      | false, none => g.take option ""

/-- Options by their letters; the first that takes a value takes what is left as one. -/
def readShort (level : Level) (g : Given) : List Char → Except UsageError Given
  | [] => .ok g
  | letter :: rest =>
      match level.options.find? fun option => option.short? = some letter with
      | none => .error .unknownArgument
      | some option =>
          if option.takesValue then
            match rest with
            | [] => g.await option
            | '=' :: value => g.take option (String.ofList value)
            | value => g.take option (String.ofList value)
          else do readShort level (← g.take option "") rest

/-- Help is asked for on a command, if it is one; no command has commands of its own. -/
def helpOn : List String → UsageError
  | [] => .help
  | [name] => if name = "help" || (Level.ofName? name).isSome then .help else .invalidSubcommand
  | _ => .invalidSubcommand

/-- Something comes that is neither an option nor the value of one. -/
def stray (level : Level) (trailing : Bool) (text : String) : UsageError :=
  if level = .top then
    if trailing && (text = "help" || (Level.ofName? text).isSome) then .unknownArgument
    else .invalidSubcommand
  else .unknownArgument

/-- Reads options up to the end, or up to the name of a command. -/
def readOptions (level : Level) (g : Given) (trailing : Bool) :
    List String → Except UsageError (Given × Option (Level × List String))
  | [] => do return (← g.settle, none)
  | text :: rest =>
      let cs := text.toList
      if trailing then .error (stray level true text)
      else if level = .top && !g.awaitsValue && text = "help" then .error (helpOn rest)
      else
        match if level = .top && !g.awaitsValue then Level.ofName? text else none with
        | some command => do return (← g.settle, some (command, rest))
        | none =>
            match cs with
            | ['-', '-'] => readOptions level g true rest
            | '-' :: '-' :: name => do readOptions level (← readLong level g name) false rest
            | '-' :: c :: more => do readOptions level (← readShort level g (c :: more)) false rest
            | _ =>
                match g.pending with
                | some (name, none) =>
                    readOptions level { g with pending := some (name, some text) } false rest
                | _ => .error (stray level false text)

structure FlowsArguments where
  path : String
  platform : Platform := .prefect
  groups : List String := []
  refetch : Option String := none
  config : Option String := none
  format : ReportFormat := .json
  outputFile : Option String := none
  deriving DecidableEq, Repr

structure DeploymentsArguments where
  file : String
  ids : List String := []
  flows : List String := []
  groups : List String := []
  format : ReportFormat := .json
  deriving DecidableEq, Repr

inductive Task where
  | flows (arguments : FlowsArguments)
  | deployments (arguments : DeploymentsArguments)
  deriving DecidableEq, Repr

structure Arguments where
  /-- How often more output was asked for, at most 255. -/
  verbose : Nat
  quiet : Bool
  task : Task
  deriving DecidableEq, Repr

def formatOf (g : Given) : ReportFormat :=
  ((g.value? .format).bind ReportFormat.ofName?).getD .json

def taskOf (command : Level) (g : Given) : Except UsageError Task :=
  match command with
  | .top => .error .missingSubcommand
  | .flows =>
      match g.value? .path with
      | none => .error .missingRequiredArgument
      | some path =>
          .ok (.flows
            { path
              platform := ((g.value? .platform).bind Platform.ofName?).getD .prefect
              groups := g.values .group
              refetch := g.value? .refetch
              config := g.value? .config
              format := formatOf g
              outputFile := g.value? .outputFile })
  | .deployments =>
      match g.value? .file with
      | none => .error .missingRequiredArgument
      | some file =>
          .ok (.deployments
            { file
              ids := g.values .id
              flows := g.values .flow
              groups := g.values .group
              format := formatOf g })

/-- A request behind the command counts instead of those before it. -/
def verboseOf (outer inner : Given) : Nat :=
  let n := (inner.values .verbose).length
  min 255 (if n = 0 then (outer.values .verbose).length else n)

def parse (argv : List String) : Except UsageError Arguments := do
  let (outer, command) ← readOptions .top {} false argv
  match command with
  | none => throw (if outer.options.isEmpty then .nothingGiven else .missingSubcommand)
  | some (level, rest) => do
      let (inner, _) ← readOptions level {} false rest
      return {
        verbose := verboseOf outer inner
        quiet := outer.has .quiet || inner.has .quiet
        task := ← taskOf level inner }

/-! ## Validity -/

def requireFile (fs : FileSystem) (what path : String) : Except String Unit :=
  if fs.isFile path then .ok () else .error (what ++ " file does not exist: " ++ path)

/-- What the arguments name has to be there; otherwise the first thing that is not. -/
def Task.validate (fs : FileSystem) : Task → Except String Unit
  | .flows a => do
      if !fs.exists? a.path then throw ("Path does not exist: " ++ a.path)
      if !fs.isDirectory a.path then throw ("Scan root is not a directory: " ++ a.path)
      a.refetch.forM (requireFile fs "Refetch")
      a.config.forM (requireFile fs "Config")
  | .deployments a => requireFile fs "Deployments" a.file

end Command

end FlowSurvey
