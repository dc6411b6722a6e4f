import FlowSurvey.Path

/-!
# File systems

A file system is a value: a tree of files, directories and symbolic links.  A path
is resolved piece by piece; links on the way are replaced by their targets, at
most forty of them.  What a path resolves to is known by the names on the way to
it that are no links, so two paths lead to the same place exactly if these agree.
-/

namespace FlowSurvey

inductive ReadFault where
  | missing
  | notADirectory
  | isADirectory
  | linkLoop
  | notText
  | other (text : String)
  deriving DecidableEq, Repr

def ReadFault.message : ReadFault → String
  | .missing => "No such file or directory (os error 2)"
  | .notADirectory => "Not a directory (os error 20)"
  | .isADirectory => "Is a directory (os error 21)"
  | .linkLoop => "Too many levels of symbolic links (os error 40)"
  | .notText => "stream did not contain valid UTF-8"
  | .other text => text

inductive Entry where
  | file (content : ByteArray)
  | directory (entries : List (String × Entry))
  | link (target : String)
  deriving Inhabited

/-- What stands between the root and an entry, the entry itself first. -/
abbrev Trail := List (String × Entry)

structure FileSystem where
  root : Entry
  /-- Where relative paths start. -/
  workingDirectory : String := "/"

def pathPieces (path : String) : List String :=
  (Path.pieces path.toList).map String.ofList

namespace FileSystem

def entryAt (root : Entry) (trail : Trail) : Entry :=
  match trail with
  | (_, entry) :: _ => entry
  | [] => root

/-- How many links a path may lead through. -/
def maxLinks : Nat := 40

/-- The trail of the pieces of a path that starts at the end of another trail. -/
def follow (root : Entry) (links : Nat) (pieces : List String) (trail : Trail) :
    Except ReadFault Trail :=
  match pieces with
  | [] => .ok trail
  | piece :: rest =>
      match entryAt root trail with
      | .directory entries =>
          if piece = "" ∨ piece = "." then follow root links rest trail
          else if piece = ".." then follow root links rest (trail.drop 1)
          else
            match entries.lookup piece with
            | none => .error .missing
            | some (.link target) =>
                match links with
                | 0 => .error .linkLoop
                | n + 1 =>
                    follow root n (pathPieces target ++ rest)
                      (if target.startsWith "/" then [] else trail)
            | some entry => follow root links rest ((piece, entry) :: trail)
      | _ => .error .notADirectory
termination_by (links, pieces.length)

/-- The trail of the directory that relative paths start at. -/
def start (fs : FileSystem) (path : String) : Except ReadFault Trail :=
  if path.isEmpty then .error .missing
  else if path.startsWith "/" then .ok []
  else follow fs.root maxLinks (pathPieces fs.workingDirectory) []

def resolve (fs : FileSystem) (path : String) : Except ReadFault Trail := do
  follow fs.root maxLinks (pathPieces path) (← fs.start path)

def entry (fs : FileSystem) (path : String) : Except ReadFault Entry :=
  (fs.resolve path).map (entryAt fs.root)

def position (trail : Trail) : List String :=
  (trail.map Prod.fst).reverse

/-- The path without links to the end of a trail. -/
def pathOf (trail : Trail) : String :=
  "/" ++ "/".intercalate (position trail)

def exists? (fs : FileSystem) (path : String) : Bool :=
  (fs.resolve path).isOk

def isDirectory (fs : FileSystem) (path : String) : Bool :=
  match fs.entry path with
  | .ok (.directory _) => true
  | _ => false

def isFile (fs : FileSystem) (path : String) : Bool :=
  match fs.entry path with
  | .ok (.file _) => true
  | _ => false

def readText (fs : FileSystem) (path : String) : Except ReadFault String :=
  match fs.entry path with
  | .error fault => .error fault
  | .ok (.file content) =>
      match String.fromUTF8? content with
      | some text => .ok text
      | none => .error .notText
  | .ok _ => .error .isADirectory

/-! ## Changes -/

/-- Puts an entry at the place of a name, in the order of the names. -/
def putEntry (name : String) (entry : Entry) : List (String × Entry) → List (String × Entry)
  | [] => [(name, entry)]
  | (n, e) :: rest =>
      if name < n then (name, entry) :: (n, e) :: rest
      else if name = n then (name, entry) :: rest
      else (n, e) :: putEntry name entry rest

/-- Puts an entry below another one; directories on the way are made as needed. -/
def put (entry : Entry) : List String → Entry → Entry
  | [], _ => entry
  | name :: names, .directory entries =>
      .directory (putEntry name (put entry names ((entries.lookup name).getD (.directory []))) entries)
  | name :: names, _ => .directory [(name, put entry names (.directory []))]

/-- The place that a file is written to which does not exist yet, through dangling links. -/
def newPlace (fs : FileSystem) : (links : Nat) → String → Except ReadFault (List String)
  | 0, _ => .error .linkLoop
  | n + 1, path => do
      let pieces := pathPieces path
      let name := pieces.getLastD ""
      if name = "" then throw .isADirectory
      let parent ← follow fs.root maxLinks pieces.dropLast (← fs.start path)
      match entryAt fs.root parent with
      | .directory entries =>
          match entries.lookup name with
          | some (.link target) =>
              newPlace fs n
                (if target.startsWith "/" then target else pathOf parent ++ "/" ++ target)
          | _ => return position parent ++ [name]
      | _ => throw .notADirectory

def writeText (fs : FileSystem) (path text : String) : Except ReadFault FileSystem :=
  let write (names : List String) : FileSystem :=
    { fs with root := put (.file text.toUTF8) names fs.root }
  match fs.resolve path with
  | .ok trail =>
      match entryAt fs.root trail with
      | .directory _ => .error .isADirectory
      | _ => .ok (write (position trail))
  | .error .missing => (fs.newPlace maxLinks path).map write
  | .error fault => .error fault

mutual

def directories : Entry → Nat
  | .directory entries => 1 + directoriesAmong entries
  | _ => 0

def directoriesAmong : List (String × Entry) → Nat
  | [] => 0
  | (_, entry) :: rest => directories entry + directoriesAmong rest

end

end FileSystem

end FlowSurvey
