import Schemata.FileTree

/-!
Paths as they are written, and where they lead in a file tree.

A route is a row of steps from a folder: names, `..` for the folder above, and `/` for the top. Every folder
that a route passes through has to be there.
-/
namespace Schemata.FileTree

abbrev Route := List String

namespace Route

/-- The steps of a written path. A `.` counts only at the start. -/
def ofText (s : String) : Route :=
  let start := if s.startsWith "/" then ["/"] else if s = "." ∨ s.startsWith "./" then ["."] else []
  start ++ (s.splitOn "/").filter fun step => step ≠ "" && step ≠ "."

def endsInFolder (s : String) : Bool :=
  s.endsWith "/" || s.endsWith "/." || s.endsWith "/.." || s = "." || s = ".." || s = ""

/-- Whether a written path ends in a `.` that is not all of it. No folder can be made under that name. -/
def endsInPoint (s : String) : Bool :=
  ((s.splitOn "/").filter (· ≠ "")).getLast? = some "." && ofText s ≠ ["."]

def isAbsolute (s : String) : Bool := s.startsWith "/"

def join (base s : String) : String :=
  if isAbsolute s then s else if base.endsWith "/" then base ++ s else base ++ "/" ++ s

end Route

def step (here : FilePath) (name : String) : FilePath :=
  if name = "/" then [] else if name = "." then here else if name = ".." then here.dropLast
  else here ++ [name]

def follow? (tree : FileTree) : FilePath → Route → Option FilePath
  | here, [] => some here
  | here, name :: rest =>
    if (tree.folder? here).isSome then tree.follow? (step here name) rest else none

/-- Where a written path leads, if something can stand there that is no folder. -/
def locate? (tree : FileTree) (here : FilePath) (s : String) : Option FilePath :=
  if Route.endsInFolder s then none else tree.follow? here (Route.ofText s)

def fileAt? (tree : FileTree) (here : FilePath) (s : String) : Option FileContent :=
  (tree.locate? here s).bind fun path => tree.file? path

def textAt? (tree : FileTree) (here : FilePath) (s : String) : Option String :=
  match tree.fileAt? here s with
  | some (.text content) => some content
  | _ => none

def writeAt? (tree : FileTree) (here : FilePath) (s content : String) : Option FileTree :=
  (tree.locate? here s).bind fun path => writeFile? (.text content) path tree

/-- Makes the folders of a route, as far as that can be done; says where it leads if all are there. -/
def makeRoute : FileTree → FilePath → Route → FileTree × Option FilePath
  | tree, here, [] => (tree, if (tree.folder? here).isSome then some here else none)
  | tree, here, name :: rest =>
    let next := step here name
    match tree.makeFolders next with
    | (tree, true) => makeRoute tree next rest
    | (tree, false) => (tree, none)

/-- Makes the folder at a written path. A path with a NUL leads nowhere, and nothing is made. Where the path
ends in a point, only the folders on the way are made. -/
def makeAt (tree : FileTree) (here : FilePath) (s : String) : FileTree × Option FilePath :=
  let route := Route.ofText s
  if '\x00' ∈ s.toList then (tree, none)
  else if Route.endsInPoint s then
    match tree.makeRoute here route.dropLast with
    | (tree, none) => (tree, none)
    | (tree, some _) => (tree, (tree.follow? here route).filter fun path => (tree.folder? path).isSome)
  else tree.makeRoute here route

end Schemata.FileTree
