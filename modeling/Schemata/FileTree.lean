import Schemata.Table

/-!
File trees: folders of named files and folders, without links. A path is the list of names from the top.
-/
namespace Schemata

/-- A file holds text, or bytes that are not the UTF-8 form of any text. -/
inductive FileContent where
  | text (s : String)
  | binary (bytes : List UInt8)
deriving DecidableEq, Repr

inductive FileTree where
  | file (content : FileContent)
  | folder (entries : Table String FileTree)

abbrev FilePath := List String

namespace FileTree

def emptyFolder : FileTree := folder Table.empty

/-- Whether a file system can hold the name: it has no NUL and at most 255 bytes. -/
def isStorable (name : String) : Bool := '\x00' ∉ name.toList && name.utf8ByteSize ≤ 255

def find? : FilePath → FileTree → Option FileTree
  | [], tree => some tree
  | name :: rest, folder entries =>
    match entries.get? name with
    | some tree => find? rest tree
    | none => none
  | _ :: _, file _ => none

def folder? (path : FilePath) (tree : FileTree) : Option (Table String FileTree) :=
  match tree.find? path with
  | some (folder entries) => some entries
  | _ => none

def file? (path : FilePath) (tree : FileTree) : Option FileContent :=
  match tree.find? path with
  | some (file content) => some content
  | _ => none

/-- Makes the folder at a path and those on the way to it, as far as no file is in the way and the names can
be stored; says whether the folder is there now. -/
def makeFolders : FilePath → FileTree → FileTree × Bool
  | [], folder entries => (folder entries, true)
  | name :: rest, folder entries =>
    match entries.get? name with
    | some tree =>
      let made := makeFolders rest tree
      (folder (entries.insert name made.1), made.2)
    | none =>
      if isStorable name then
        let made := makeFolders rest emptyFolder
        (folder (entries.insert name made.1), made.2)
      else (folder entries, false)
  | _, file content => (file content, false)

/-- Writes a file into a folder that is there, unless a folder has its name. -/
def writeFile? (content : FileContent) : FilePath → FileTree → Option FileTree
  | [name], folder entries =>
    match entries.get? name with
    | some (folder _) => none
    | _ => if isStorable name then some (folder (entries.insert name (file content))) else none
  | name :: next :: rest, folder entries =>
    match entries.get? name with
    | some tree =>
      (writeFile? content (next :: rest) tree).map fun tree => folder (entries.insert name tree)
    | none => none
  | _, _ => none

mutual
def listing (base : String) : FileTree → List (String × Option FileContent)
  | file content => [(base, some content)]
  | folder ⟨[]⟩ => [(base, none)]
  | folder ⟨entry :: rest⟩ => listingOf (base ++ "/") (entry :: rest)

def listingOf (lead : String) : List (String × FileTree) → List (String × Option FileContent)
  | [] => []
  | (name, tree) :: rest => tree.listing (lead ++ name) ++ listingOf lead rest
end

def contents : FileTree → List (String × Option FileContent)
  | folder entries => listingOf "" entries.entries
  | file _ => []

end FileTree

end Schemata
