import FlowSurvey.Command.Run

/-!
# The program

The program takes a snapshot of the files that its arguments name, and of what
links among them lead to, and runs on that.
-/

namespace FlowSurvey.Program

/-- The target of a link that leads nowhere: no file has such a name. -/
def nowhere : String := "\x00"

/--
What is at a path.  A link is kept with the real place that it leads to instead of its own text,
so its size, which counts where links are not followed, is not the one that it has on disk.
-/
partial def snapshot (path : String) : IO (Option Entry) := do
  let place ← IO.FS.realPath path
  match (← place.metadata).type with
  | .file => return some (.file (← IO.FS.readBinFile place))
  | .dir =>
      let mut entries := #[]
      for child in ← place.readDir do
        let path := child.path.toString
        let entry ←
          match (← child.path.symlinkMetadata).type with
          | .symlink =>
              match ← (IO.FS.realPath path).toBaseIO with
              | .ok target => pure (some (.link target.toString))
              | .error _ => pure (some (.link nowhere))
          | _ => snapshot path
        if let some entry := entry then entries := entries.push (child.fileName, entry)
      return some (.directory entries.toList)
  | _ => return none

partial def linkTargets : Entry → List String
  | .file _ => []
  | .link target => if target = nowhere then [] else [target]
  | .directory entries => entries.flatMap fun (_, entry) => linkTargets entry

def namesOf (path : String) : List String :=
  (pathPieces path).filter fun piece => piece ≠ "" && piece ≠ "."

/-- Adds a link from a path to its real place, unless the path leads there already. -/
def addLink (fs : FileSystem) (path place : String) : FileSystem :=
  if fs.exists? path then fs
  else
    { fs with
      root := FileSystem.put (.link place) (namesOf (Path.join fs.workingDirectory path)) fs.root }

/-- Adds an entry at its real place, and a link from the path by which it is named. -/
def addEntry (fs : FileSystem) (path place : String) (entry : Entry) : FileSystem :=
  addLink { fs with root := FileSystem.put entry (namesOf place) fs.root } path place

structure Reading where
  fs : FileSystem
  /-- The real places of the trees that have been read. -/
  places : List String := []

/-- A place lies in a tree that has been read. -/
def Reading.covers (r : Reading) (place : String) : Bool :=
  r.places.any fun p => (Path.below? p place).isSome

/-- Adds what is at a path, and what links in it lead to. -/
partial def addPath (r : Reading) (path : String) : IO Reading := do
  match ← (IO.FS.realPath path).toBaseIO with
  | .error _ => return r
  | .ok place =>
      let place := place.toString
      if r.covers place then return { r with fs := addLink r.fs path place }
      match ← snapshot place with
      | none => return r
      | some entry =>
          (linkTargets entry).foldlM addPath ⟨addEntry r.fs path place entry, place :: r.places⟩

/-- Adds what is at a path without its content. -/
def addOutline (fs : FileSystem) (path : String) : IO FileSystem := do
  if fs.exists? path then return fs
  match ← (IO.FS.realPath path).toBaseIO with
  | .error _ => return fs
  | .ok place =>
      let entry := if (← place.metadata).type == .dir then .directory [] else .file ⟨#[]⟩
      return addEntry fs path place.toString entry

/-- Adds what a file that is to be written depends on: its directory, and what stands there. -/
def addDestination (fs : FileSystem) (path : String) : IO FileSystem := do
  let parent := "/".intercalate (pathPieces path).dropLast
  let directory := if path.startsWith "/" then "/" ++ parent else if parent = "" then "." else parent
  addOutline (← addOutline fs directory) path

def pathsOf : Command.Task → List String
  | .flows a => [a.path] ++ a.config.toList ++ a.refetch.toList
  | .deployments a => [a.file]

def destination? : Command.Task → Option String
  | .flows a => a.outputFile
  | .deployments _ => none

end FlowSurvey.Program

open FlowSurvey FlowSurvey.Program in
def main (argv : List String) : IO UInt32 := do
  let directory := (← IO.currentDir).toString
  let empty : FileSystem :=
    ⟨FileSystem.put (.directory []) (namesOf directory) (.directory []), directory⟩
  let fs ←
    match Command.parse argv with
    | .ok arguments => do
        let reading ← (pathsOf arguments.task).foldlM addPath { fs := empty }
        (destination? arguments.task).toList.foldlM addDestination reading.fs
    | .error _ => pure empty
  let result := Command.run fs argv
  IO.eprint result.log
  IO.print result.delivery.printed
  if let some (path, text) := result.delivery.written then IO.FS.writeFile path text
  return result.exitCode
