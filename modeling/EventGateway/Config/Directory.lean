import EventGateway.Text.Utf8

/-! A directory: its names, and what each of them stands for. -/

namespace EventGateway

inductive DirectoryEntry
  | file (bytes : List UInt8)
  | folder
  deriving DecidableEq, Repr

structure Directory where
  entries : List (String × DirectoryEntry)
  deriving DecidableEq, Repr

inductive AccessError
  | notFound
  | isFolder
  | notUtf8
  | other (reason : String)
  deriving DecidableEq, Repr

namespace AccessError

def message : AccessError → String
  | notFound => "No such file or directory (os error 2)"
  | isFolder => "Is a directory (os error 21)"
  | notUtf8 => "stream did not contain valid UTF-8"
  | other r => r

end AccessError

def pathParts (path : String) : List String :=
  (path.splitOn "/").filter fun p => p ≠ "" ∧ p ≠ "."

namespace Directory

def nameOf (home path : String) : String :=
  let parts := pathParts path
  if !path.startsWith "/" then if parts.isEmpty then "." else "/".intercalate parts
  else if (pathParts home).isPrefixOf parts then
    "/".intercalate (parts.drop (pathParts home).length)
  else "/" ++ "/".intercalate parts

def empty : Directory := ⟨[]⟩

def find? (d : Directory) (name : String) : Option DirectoryEntry := d.entries.lookup name

def remove (d : Directory) (name : String) : Directory :=
  ⟨d.entries.filter fun e => e.1 ≠ name⟩

def put (d : Directory) (name : String) (e : DirectoryEntry) : Directory :=
  ⟨(name, e) :: (d.remove name).entries⟩

def names (d : Directory) : List String := (d.entries.map Prod.fst).mergeSort (· ≤ ·)

def readText (d : Directory) (name : String) : Except AccessError String :=
  match d.find? name with
  | none => .error .notFound
  | some .folder => .error .isFolder
  | some (.file bytes) =>
    match Text.ofUtf8? bytes with
    | some s => .ok s
    | none => .error .notUtf8

def write (d : Directory) (name : String) (bytes : List UInt8) : Except AccessError Directory :=
  match d.find? name with
  | some .folder => .error .isFolder
  | _ => .ok (d.put name (.file bytes))

def rename (d : Directory) (source target : String) : Except AccessError Directory :=
  match d.find? source, d.find? target with
  | none, _ => .error .notFound
  | some _, some .folder => .error .isFolder
  | some e, _ => .ok ((d.remove source).put target e)

end Directory

end EventGateway
