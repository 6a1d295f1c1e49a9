import TicketPress.Text.Lines

/-!
# Files as the command line sees them

A task is told what stands under each path and to which paths it may write,
and answers with what is to be written. So what a task does is a function, and
what it leaves behind is a second view of the files.
-/

namespace TicketPress.CommandLine

/-- What stands under a path. -/
inductive Entry where
  | missing
  /-- A file that holds a text. -/
  | file (text : String)
  /-- Something that cannot be read as a text: a folder, or a file whose bytes
  are none. -/
  | unreadable
  deriving Repr, DecidableEq

/-- The files, by path. -/
structure Files where
  entry : String → Entry
  /-- Whether a file can be written under the path. -/
  writable : String → Bool

/-- The files after a text is written under a path. -/
def Files.write (files : Files) (path text : String) : Files where
  entry other := if other = path then .file text else files.entry other
  writable := files.writable

@[simp] theorem Files.entry_write_same (files : Files) (path text : String) :
    (files.write path text).entry path = .file text := by simp [write]

@[simp] theorem Files.entry_write_other {files : Files} {path text other : String}
    (h : other ≠ path) : (files.write path text).entry other = files.entry other := by
  simp [write, h]

/-! ## A folder by itself -/

/-- A folder: its files, each under a relative path. -/
abbrev Folder := List (String × Entry)

/-- The segments of a path; an empty one and a single dot lead nowhere. -/
def segments (path : String) : List (List Char) :=
  (path.toList.splitOn '/').filter fun segment => segment ≠ [] && segment ≠ ['.']

/-- Whether the path can only name a folder of its last segment. -/
def namesFolder (path : String) : Bool :=
  match (path.toList.splitOn '/').getLast? with
  | some segment => segment == [] || segment == ['.']
  | none => true

/-- Whether the path starts at the root and not in the folder. -/
def isAbsolute (path : String) : Bool := path.toList.head? == some '/'

/-- The most bytes of one segment of a path. -/
def maxSegment : Nat := 255

/-- The most bytes of a path. -/
def maxPath : Nat := 4095

/-- Whether a path is short enough for a system of files to look it up. -/
def isShort (path : String) : Bool :=
  path.utf8ByteSize ≤ maxPath &&
    (segments path).all fun segment => Text.byteLength segment ≤ maxSegment

/-- Whether the segments lead to a folder: the folder itself, or one on the
way to a file. -/
def Folder.hasFolder (folder : Folder) (steps : List (List Char)) : Bool :=
  steps == [] || folder.any fun (name, _) =>
    steps.isPrefixOf (segments name) && steps.length < (segments name).length

/-- Where a path leads to. -/
inductive Place where
  /-- Through something that is no folder. -/
  | nowhere
  /-- Into the folder, to what the steps lead to if there is such a thing. -/
  | inside (steps : List (List Char))
  /-- To one of the folders around the folder. -/
  | around
  /-- To a name in one of the folders around the folder. -/
  | beside
  deriving Repr, DecidableEq

/-- One segment further; two dots lead to the folder above. The root is above
itself. -/
def Folder.step (folder : Folder) (place : Place) (segment : List Char) : Place :=
  match place with
  | .nowhere => .nowhere
  | .beside => .nowhere
  | .around => if segment = ['.', '.'] then .around else .beside
  | .inside steps =>
    if !folder.hasFolder steps then .nowhere
    else if segment ≠ ['.', '.'] then .inside (steps ++ [segment])
    else if steps = [] then .around
    else .inside steps.dropLast

/-- Where a path leads to from within the folder. -/
def Folder.place (folder : Folder) (path : String) : Place :=
  if path = "" || !isShort path then .nowhere
  else (segments path).foldl folder.step (if isAbsolute path then .around else .inside [])

/-- What stands under a path. Around the folder nothing but folders is known. -/
def Folder.entry (folder : Folder) (path : String) : Entry :=
  match folder.place path with
  | .nowhere => .missing
  | .beside => .missing
  | .around => .unreadable
  | .inside steps =>
    if folder.hasFolder steps then .unreadable
    else if namesFolder path then .missing
    else
      match folder.find? fun (name, _) => segments name == steps with
      | some (_, entry) => entry
      | none => .missing

/-- Whether a file can be written under a path: the folder it goes into has to
be there, and the path may not name a folder. -/
def Folder.writable (folder : Folder) (path : String) : Bool :=
  match folder.place path with
  | .nowhere => false
  | .around => false
  | .beside => !namesFolder path
  | .inside steps => !folder.hasFolder steps && !namesFolder path

/-- The files of a folder. -/
def Folder.files (folder : Folder) : Files := ⟨folder.entry, folder.writable⟩

end TicketPress.CommandLine
