/-!
# Paths in a file tree

Directories and files by their names from the root down, and the place that a path leads to. A path
is followed part by part: each part but the last has to be a directory, and so has the last if a
slash or a dot comes after it.
-/

namespace DimmBus

/-- The names on the way from the root. -/
abbrev Route := List String

/-- The directories and the files that exist. -/
structure FileTree where
  directories : List Route
  files : List Route
deriving DecidableEq, Repr, Inhabited

/-- Where a path leads. -/
inductive Place where
  | directory (route : Route)
  | file (route : Route)
  /-- A name that is still free, in a directory that exists. -/
  | free (route : Route)
deriving DecidableEq, Repr

namespace Route

/-- The route written as a path from the root. -/
def text (r : Route) : String := r.foldl (fun path name => path ++ "/" ++ name) ""

end Route

namespace FileTree

/-- The most bytes that a name may have. -/
def maxNameBytes : Nat := 255

/-- The most bytes that a whole path may have. -/
def maxPathBytes : Nat := 4095

/-- What there is at a route. -/
def look (t : FileTree) (r : Route) : Place :=
  if t.directories.contains r then .directory r
  else if t.files.contains r then .file r
  else .free r

/-- The place one part further. No part and a single dot stay, two dots go up, and above the root is
the root again. -/
def next? (t : FileTree) (place : Place) (part : String) : Option Place :=
  match place with
  | .directory r =>
    if part = "" ∨ part = "." then some (.directory r)
    else if part = ".." then some (t.look r.dropLast)
    else if part.utf8ByteSize ≤ maxNameBytes then some (t.look (r ++ [part]))
    else none
  | .file _ | .free _ => none

/-- The parts of a path between its slashes, those without a character included. -/
def parts (path : String) : List String := (path.toList.splitOn '/').map String.ofList

/-- A path from the root stays as it is; any other starts from a directory. -/
def absolute (start : Route) (path : String) : String :=
  if path.toList.head? = some '/' then path else start.text ++ "/" ++ path

/-- The place that a path leads to. A path that is too long or has a null character leads nowhere,
whatever its parts are. -/
def place? (t : FileTree) (start : Route) (path : String) : Option Place :=
  let whole := absolute start path
  if whole.utf8ByteSize ≤ maxPathBytes ∧ '\x00' ∉ whole.toList then
    (parts whole).foldlM t.next? (.directory [])
  else none

/-- Whether there is something at a path. -/
def existsAt (t : FileTree) (start : Route) (path : String) : Bool :=
  match t.place? start path with
  | some (.directory _) | some (.file _) => true
  | some (.free _) | none => false

/-- Opens the file at a path, and makes it if the name is free. A directory cannot be opened. -/
def openAt (t : FileTree) (start : Route) (path : String) : Option (Route × FileTree) :=
  match t.place? start path with
  | some (.file r) => some (r, t)
  | some (.free r) => some (r, { t with files := r :: t.files })
  | some (.directory _) | none => none

/-- The directories on the way to a directory, with the root and itself. -/
def way (r : Route) : List Route := (List.range (r.length + 1)).map r.take

/-- What every system has below its root. -/
def standard : FileTree where
  directories := [[], ["bin"], ["boot"], ["dev"], ["etc"], ["home"], ["lib"], ["media"], ["mnt"],
    ["opt"], ["proc"], ["root"], ["run"], ["sbin"], ["srv"], ["sys"], ["tmp"], ["usr"], ["var"]]
  files := [["dev", "null"], ["etc", "passwd"]]

/-- The standard tree with a further directory, which is empty. -/
def withDirectory (r : Route) : FileTree :=
  { standard with directories := way r ++ standard.directories }

end FileTree

end DimmBus
