/-!
# Folders

Files by their paths, as far as reading one goes: the bytes of a file as text, or why there is none.
A path is walked name by name, through folders only, and the first name that leads nowhere decides
the reason. Nothing is cancelled beforehand: a folder left again by two dots has to be there.
-/

namespace Quill

namespace Command

/-- Why a path gives no text. -/
inductive ReadFault where
  | missing
  | denied
  | notFolder
  | isFolder
  | nameTooLong
  | notText
  | other (text : String)
  deriving DecidableEq

/-- The reason in the system's words. -/
def ReadFault.message : ReadFault → String
  | missing => "No such file or directory (os error 2)"
  | denied => "Permission denied (os error 13)"
  | notFolder => "Not a directory (os error 20)"
  | isFolder => "Is a directory (os error 21)"
  | nameTooLong => "File name too long (os error 36)"
  | notText => "stream did not contain valid UTF-8"
  | other text => text

/-- The reason with the given number of the system. -/
def ReadFault.ofNumber? : Nat → Option ReadFault
  | 2 => some missing
  | 13 => some denied
  | 20 => some notFolder
  | 21 => some isFolder
  | 36 => some nameTooLong
  | _ => none

/-- Bytes as text. -/
def textOfBytes (bytes : ByteArray) : Except ReadFault String :=
  match String.fromUTF8? bytes with
  | some text => .ok text
  | none => .error .notText

/-- What a name in a folder stands for. -/
inductive Entry where
  | file (bytes : ByteArray)
  | folder (entries : List (String × Entry))

/-- Where a walk stands: at an entry, below the folders that lead to it, the nearest first. -/
structure Place where
  entry : Entry
  above : List Entry

/-- The most bytes that a name may have. -/
def longestName : Nat := 255

/-- The most bytes that a path may have. -/
def longestPath : Nat := 4095

/-- One name of a path. An empty name and a single dot stay in a folder, and two dots go to the one
above, which for the outermost folder is itself. -/
def Place.enter (place : Place) (name : String) : Except ReadFault Place :=
  match place.entry with
  | .file _ => .error .notFolder
  | .folder entries =>
    if name = "" ∨ name = "." then
      .ok place
    else if name = ".." then
      match place.above with
      | [] => .ok place
      | outer :: further => .ok ⟨outer, further⟩
    else if longestName < name.utf8ByteSize then
      .error .nameTooLong
    else
      match entries.lookup name with
      | some entry => .ok ⟨entry, place.entry :: place.above⟩
      | none => .error .missing

/-- The outermost folder above a place. -/
def Place.root (place : Place) : Place :=
  ⟨place.above.getLastD place.entry, []⟩

/-- Where a path leads from a place. A path that begins with a slash starts at the root. -/
def Place.follow (place : Place) (path : String) : Except ReadFault Place :=
  if path = "" then
    .error .missing
  else if longestPath < path.utf8ByteSize then
    .error .nameTooLong
  else
    let start := if path.startsWith "/" then place.root else place
    (path.splitOn "/").foldlM Place.enter start

/-- The text that a path gives from a place. -/
def Place.read (place : Place) (path : String) : Except ReadFault String := do
  match (← place.follow path).entry with
  | .file bytes => textOfBytes bytes
  | .folder _ => .error .isFolder

/-- The folders at the root of a system. Of what is in them only the devices that give no text are
known. -/
def systemFolders : List (String × Entry) :=
  let devices := ["null", "stdin"].map fun name => (name, .file ByteArray.empty)
  let others := ["bin", "boot", "etc", "home", "lib", "media", "mnt", "opt", "proc", "root", "run",
    "sbin", "srv", "sys", "tmp", "usr", "var"]
  ("dev", .folder devices) :: others.map fun name => (name, .folder [])

/-- A folder with the given files and nothing else in it, fresh among the temporary files of a
system. No path leads to it by its name. -/
def Place.ofFiles (files : List (String × ByteArray)) : Place where
  entry := .folder (files.map fun file => (file.1, .file file.2))
  above := [.folder [], .folder systemFolders]

end Command

end Quill
