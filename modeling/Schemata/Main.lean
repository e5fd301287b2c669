import Schemata.Command.EventTool
import Schemata.Command.RegistryTool
import Std.Time.DateTime.Timestamp

/-!
The command line. The first argument names a tool, `schema-registry` or `schema-events`, and the others are
for the tool.

Tools run on a picture of the file system. It shows the settings files, the files that the arguments name
and the registry's folder below the directory's root; what a tool has written is then carried over to the
disk.
-/
namespace Schemata.CommandLine

structure Tool where
  run : Instant → List String → Workplace → Command.Outcome × Workplace
  /-- The settings that a call with the given arguments uses. -/
  settings? : List String → Workplace → Option Settings

def registryTool : Tool where
  run := Command.RegistryTool.run
  settings? arguments w :=
    (Command.RegistryTool.Call.ofArguments arguments).toOption.bind fun call => call.settings? w

def eventTool : Tool where
  run := Command.EventTool.run
  settings? arguments w :=
    (Command.EventTool.Call.ofArguments arguments).toOption.bind fun call => call.settings? w

def clock : IO Instant := do
  let t ← Std.Time.Timestamp.now
  return ⟨t.val.second.val, t.val.nano.val.toNat⟩

def environment : IO (List (String × String)) := do
  let bytes ← IO.FS.readBinFile "/proc/self/environ"
  let entries := ((String.fromUTF8? bytes).getD "").splitOn "\x00"
  return entries.filterMap fun entry =>
    (Text.splitFirst? '=' entry.toList).map fun (name, value) =>
      (String.ofList name, String.ofList value)

def diskPath (path : FilePath) : String := "/" ++ "/".intercalate path

def ofDiskPath (s : String) : FilePath := (FileTree.Route.ofText s).filter (· ≠ "/")

def ofBytes (bytes : ByteArray) : FileContent :=
  match String.fromUTF8? bytes with
  | some s => .text s
  | none => .binary bytes.toList

/-- Puts what stands at a path into the picture: a file, or a folder with `depth` levels below it. -/
def reveal (depth : Nat) (path : FilePath) (tree : FileTree) : IO FileTree := do
  let place := (← IO.currentDir) / diskPath path
  if ← place.isDir then
    let mut tree := (tree.makeFolders path).1
    match depth with
    | 0 => return tree
    | depth + 1 =>
      for entry in ← place.readDir do
        tree ← reveal depth (path ++ [entry.fileName]) tree
      return tree
  else if ← place.pathExists then
    let content := ofBytes (← IO.FS.readBinFile place)
    let tree := (tree.makeFolders path.dropLast).1
    return (FileTree.writeFile? content path tree).getD tree
  else return tree

/-- Puts into the picture what a written path leads to, and what it passes on the way. -/
def revealRoute (depth : Nat) (name : String) (w : Workplace) : IO Workplace := do
  let mut files := w.files
  let mut path := w.here
  for step in FileTree.Route.ofText name do
    path := FileTree.step path step
    files ← reveal 0 path files
  return { w with files := ← reveal depth path files }

def namedFiles (w : Workplace) (arguments : List String) : List String :=
  let names := arguments ++ Settings.localFiles ++ (Settings.userFile? w).toList
  names ++ names.flatMap fun name => Settings.FileKind.all.map fun (ending, _) => name ++ "." ++ ending

def picture (tool : Tool) (arguments : List String) : IO Workplace := do
  let here := ofDiskPath (← IO.currentDir).toString
  let mut w : Workplace := ⟨FileTree.emptyFolder, here, ← environment⟩
  for name in "." :: namedFiles w arguments do
    w ← revealRoute 0 name w
  match tool.settings? arguments w with
  | none => return w
  | some settings =>
    w ← revealRoute 0 settings.path w
    revealRoute 2 (FileTree.Route.join settings.path settings.registry) w

/-- Writes to the disk what the later picture shows and the earlier one does not. -/
def carryOver (before after : FileTree) : IO Unit := do
  let known := before.contents
  for (path, content) in after.contents do
    let place := "/" ++ path
    match content with
    | none => IO.FS.createDirAll place
    | some content =>
      if known.lookup path ≠ some (some content) then
        IO.FS.createDirAll (diskPath (ofDiskPath place).dropLast)
        match content with
        | .text s => IO.FS.writeFile place s
        | .binary bytes => IO.FS.writeBinFile place ⟨bytes.toArray⟩

def start (tool : Tool) (arguments : List String) : IO UInt32 := do
  let w ← picture tool arguments
  let (outcome, after) := tool.run (← clock) arguments w
  carryOver w.files after.files
  IO.print outcome.output
  if let some failure := outcome.failure then
    IO.eprintln ("Error: " ++ failure.message)
  return outcome.exitCode.toUInt32

end Schemata.CommandLine

open Schemata.CommandLine in
def main (arguments : List String) : IO UInt32 := do
  match arguments with
  | "schema-registry" :: rest => start registryTool rest
  | "schema-events" :: rest => start eventTool rest
  | _ =>
    IO.eprintln "The first argument names a tool: schema-registry or schema-events."
    return 2
