import BracketTally.Reader
import BracketTally.Text.Raw

/-!
# File trees

A snapshot of a directory: the files below it, each with the names that lead to it, and its bytes.
Empty names and single dots lead nowhere new, a double dot leads up, and above the snapshot nothing
is known but that there are directories.  A directory can be opened, and fails when it is read.
-/

namespace BracketTally

structure FileTree where
  files : List (List RawText × List UInt8)

namespace FileTree

/-! ## What can go wrong -/

def notFound : Fault := .ofSystem 2 "No such file or directory"

def notADirectory : Fault := .ofSystem 20 "Not a directory"

def isADirectory : Fault := .ofSystem 21 "Is a directory"

def nameTooLong : Fault := .ofSystem 36 "File name too long"

def nulByte : Fault := ⟨.invalidInput, "file name contained an unexpected NUL byte"⟩

def longestName : Nat := 255

def longestPath : Nat := 4095

/-! ## Walking a path -/

inductive Place
  | outside
  | directory (names : List RawText)
  | file (bytes : List UInt8)

def isDirectory (tree : FileTree) (names : List RawText) : Bool :=
  tree.files.any fun (path, _) => names.isPrefixOf path && names.length < path.length

def absent (name : RawText) : Fault :=
  if longestName < name.bytes.length then nameTooLong else notFound

def enter (tree : FileTree) (place : Place) (name : RawText) : Except Fault Place :=
  match place with
  | .file _ => .error notADirectory
  | .outside =>
      if name = ↑"" ∨ name = ↑"." ∨ name = ↑".." then .ok .outside else .error (absent name)
  | .directory names =>
      if name = ↑"" ∨ name = ↑"." then .ok place
      else if name = ↑".." then
        .ok (if names.isEmpty then .outside else .directory names.dropLast)
      else
        let below := names ++ [name]
        match tree.files.lookup below with
        | some bytes => .ok (.file bytes)
        | none =>
            if tree.isDirectory below then .ok (.directory below) else .error (absent name)

def walk (tree : FileTree) (place : Place) (names : List RawText) : Except Fault Place :=
  names.foldlM tree.enter place

def Place.reads : Place → List Read
  | file bytes => [.data bytes]
  | _ => [.failed isADirectory]

def slash : UInt8 := 0x2F

def components (path : RawText) : Place × List RawText :=
  let names := (path.bytes.splitOn slash).map RawText.mk
  match names with
  | ⟨[]⟩ :: _ :: _ => (.outside, names)
  | _ => (.directory [], names)

def openPath (tree : FileTree) (path : RawText) : Except Fault (List Read) :=
  if path.bytes.contains 0 then .error nulByte
  else if longestPath < path.bytes.length then .error nameTooLong
  else if path.bytes.isEmpty then .error notFound
  else
    let (place, names) := components path
    (tree.walk place names).map Place.reads

/-! ## Files -/

def IsPlain (name : RawText) : Prop := name ≠ ↑"" ∧ name ≠ ↑"." ∧ name ≠ ↑".."

theorem enter_file {tree : FileTree} {names : List RawText} {name : RawText} {bytes : List UInt8}
    (plain : IsPlain name) (held : tree.files.lookup (names ++ [name]) = some bytes) :
    tree.enter (.directory names) name = .ok (.file bytes) := by
  obtain ⟨notEmpty, notDot, notDots⟩ := plain
  rw [enter, if_neg (by simp [notEmpty, notDot]), if_neg notDots]
  simp only [held]

end FileTree

end BracketTally
