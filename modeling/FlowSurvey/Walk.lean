import FlowSurvey.Diagnostic
import FlowSurvey.Failure
import FlowSurvey.FileSystem

/-!
# Walks

A walk visits what is below a root, depth first and in the order of the names, and
finds the source files there.  A link to a directory is entered only if links are
followed, and not if that would lead back to a directory on the way to it; so a
walk follows no more links on its way down than there are directories.
-/

namespace FlowSurvey

inductive WalkFault where
  | unreadable (path : String) (fault : ReadFault)
  | loop (path ancestor : String)
  deriving DecidableEq, Repr

def WalkFault.path : WalkFault → String
  | .unreadable path _ | .loop path _ => path

def WalkFault.message : WalkFault → String
  | .unreadable path fault => "IO error for operation on " ++ path ++ ": " ++ fault.message
  | .loop path ancestor =>
      "File system loop found: " ++ path ++ " points to an ancestor " ++ ancestor

inductive Visit where
  | source (path : String)
  | tooLarge (path : String) (size limit : Nat)
  | skipped (fault : WalkFault)
  deriving DecidableEq, Repr

/-- A directory that a walk is in. -/
structure Ancestor where
  path : String
  position : List String
  deriving DecidableEq, Repr

namespace Walk

def isSourcePath (config : Config) (path : String) : Bool :=
  (Path.extension? path).any config.isSourceExtension

/-- A file, or a link to one, with the size that counts. -/
def visitFile (config : Config) (path : String) (size : Nat) : List Visit :=
  if isSourcePath config path then
    if config.maxFileSize < size then [.tooLarge path size config.maxFileSize] else [.source path]
  else []

/-- A directory, which is entered unless its name is excluded. -/
def visitDirectory (config : Config) (descend : List Ancestor → List (String × Entry) → List Visit)
    (ancestors : List Ancestor) (name : String) (directory : Ancestor)
    (entries : List (String × Entry)) : List Visit :=
  if config.excludes name then [] else descend (directory :: ancestors) entries

/-- What a link leads to, if links are followed. -/
def visitTarget (fs : FileSystem) (config : Config)
    (descend : List Ancestor → List (String × Entry) → List Visit) (ancestors : List Ancestor)
    (name path : String) : List Visit :=
  match fs.resolve path with
  | .error fault => [.skipped (.unreadable path fault)]
  | .ok trail =>
      match FileSystem.entryAt fs.root trail with
      | .file content => visitFile config path content.size
      | .directory entries =>
          let position := FileSystem.position trail
          match ancestors.find? fun a => a.position = position with
          | some ancestor => [.skipped (.loop path ancestor.path)]
          | none => visitDirectory config descend ancestors name ⟨path, position⟩ entries
      | .link _ => []

/-- An entry of the directory that comes first among the ancestors. -/
def visitEntry (fs : FileSystem) (config : Config)
    (descend : List Ancestor → List (String × Entry) → List Visit) (ancestors : List Ancestor)
    (name : String) (entry : Entry) : List Visit :=
  let directory := ancestors.headD ⟨"", []⟩
  let path := Path.join directory.path name
  match entry with
  | .file content => visitFile config path content.size
  | .directory entries =>
      visitDirectory config descend ancestors name ⟨path, directory.position ++ [name]⟩ entries
  | .link target =>
      if config.followLinks then visitTarget fs config descend ancestors name path
      else if fs.isFile path then visitFile config path target.utf8ByteSize
      else []

def inOrder (entries : List (String × Entry)) : List (String × Entry) :=
  entries.mergeSort fun a b => !(b.1 < a.1)

/-- Visits the entries of the directory that comes first among the ancestors. -/
def visitEntries (fs : FileSystem) (config : Config) :
    (fuel : Nat) → List Ancestor → List (String × Entry) → List Visit
  | 0, _, _ => []
  | n + 1, ancestors, entries =>
      if config.maxDepth.all (ancestors.length ≤ ·) then
        (inOrder entries).flatMap fun (name, entry) =>
          visitEntry fs config (visitEntries fs config n) ancestors name entry
      else []

/--
No walk goes deeper: each link on the way leads to another directory, and behind it the
walk goes down a tree.
-/
def deepest (fs : FileSystem) : Nat :=
  FileSystem.directories fs.root * FileSystem.directories fs.root

def visits (fs : FileSystem) (root : String) (config : Config) : Except FileFailure (List Visit) :=
  match fs.resolve root with
  | .error _ => .error (.directoryNotFound root)
  | .ok trail =>
      match FileSystem.entryAt fs.root trail with
      | .directory entries =>
          .ok (visitEntries fs config (deepest fs + 1)
            [⟨root, FileSystem.position trail⟩] entries)
      | _ => .error (.notADirectory root)

end Walk

def Visit.source? : Visit → Option String
  | .source path => some path
  | _ => none

/-- What is said about an entry that was passed over. -/
def Visit.diagnostic? : Visit → Option Diagnostic
  | .source _ => none
  | .tooLarge path size limit =>
      some ⟨path, .walk, ": ".intercalate (FileFailure.tooLarge path size limit).chain⟩
  | .skipped fault => some ⟨fault.path, .walk, fault.message⟩

def sourcesOf (visits : List Visit) : List String :=
  visits.filterMap Visit.source?

def diagnosticsOf (visits : List Visit) : List Diagnostic :=
  visits.filterMap Visit.diagnostic?

end FlowSurvey
