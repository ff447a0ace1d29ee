import IncidentLens.Data.LineBreaks
import IncidentLens.Investigations.Discovery

/-!
# Searching remote files

A search walks the directories below a path in a queue, reads the files it finds and collects the lines that
contain a query. A host lists directories with the modes that its server reports; for a container the entries are
parsed back from what `find` prints.
-/
namespace IncidentLens.RemoteOps.Files
open Data Logs Investigations Investigations.Discovery

def maxSearchMatches : ℕ := 200
def maxSearchFiles : ℕ := 10000
def maxSearchFileBytes : ℕ := 1048576

inductive FileError
  | remotePath
  | containerFileOperationUnsupported (message : String)
  | value
  deriving DecidableEq

/-- The fields of the metadata of a file that a search reads. -/
structure FileMetadata where
  path : RemotePath
  size : ℤ
  mode : ℕ
  isSymlink : Bool
  deriving DecidableEq

structure SearchMatch where
  path : RemotePath
  lineNumber : ℕ
  text : List Char
  deriving DecidableEq

structure Transport where
  listDirectory : RemotePath → Except FileError (List FileMetadata)
  readBytes : RemotePath → ℕ → Except FileError Bytes

/-! ### The search -/

def name (path : RemotePath) : String := path.parts.getLast?.getD ""

/-- `_is_directory_entry`: the type bits decide, where there are none the size does. -/
def isDirectoryEntry (entry : FileMetadata) : Bool :=
  if entry.mode &&& 0o170000 ≠ 0 then decide (entry.mode &&& 0o170000 = 0o040000) else decide (entry.size = 0)

/-- The variables of a search, `matches` under the name `found`, with the files that were read. -/
structure Walk where
  found : List SearchMatch := []
  filesVisited : ℕ := 0
  dirs : List RemotePath
  reads : List RemotePath := []
  deriving DecidableEq

section
variable (decode : Bytes → List Char) (query : List Char)

/-- The lines of one file from a number on; `true` when the search returns in the middle of it. -/
def matchLines (path : RemotePath) : ℕ → List Bytes → List SearchMatch → List SearchMatch × Bool
  | _, [], found => (found, false)
  | number, line :: lines, found =>
    if maxSearchMatches ≤ found.length then (found, true)
    else if contains query (decode line) then
      matchLines path (number + 1) lines (found ++ [⟨path, number, (decode line).take 2000⟩])
    else matchLines path (number + 1) lines found

variable (transport : Transport)

/-- The entries of one directory; `true` when the search returns among them. -/
def visitEntries (current : RemotePath) : List FileMetadata → Walk → Except FileError (Walk × Bool)
  | [], walk => .ok (walk, false)
  | entry :: entries, walk =>
    if maxSearchMatches ≤ walk.found.length then .ok (walk, true)
    else if entry.isSymlink then visitEntries current entries walk
    else if decide (entry.path = current) || decide (name entry.path = "..") then visitEntries current entries walk
    else if isDirectoryEntry entry then visitEntries current entries { walk with dirs := walk.dirs ++ [entry.path] }
    else
      match transport.readBytes entry.path maxSearchFileBytes with
      | .error .remotePath => visitEntries current entries { walk with filesVisited := walk.filesVisited + 1 }
      | .error e => .error e
      | .ok data =>
        let searched := matchLines decode query entry.path 1 (data.splitOn 10) walk.found
        let walk := { walk with
          filesVisited := walk.filesVisited + 1
          reads := walk.reads ++ [entry.path]
          found := searched.1 }
        if searched.2 then .ok (walk, true) else visitEntries current entries walk

/-- The loop over the queue; `none` when it takes more than the given number of rounds. -/
def searchFrom : ℕ → Walk → Option (Except FileError Walk)
  | 0, _ => none
  | rounds + 1, walk =>
    match walk.dirs with
    | [] => some (.ok walk)
    | current :: dirs =>
      if maxSearchFiles ≤ walk.filesVisited then some (.ok walk)
      else match transport.listDirectory current with
        | .error .remotePath => searchFrom rounds { walk with dirs := dirs }
        | .error e => some (.error e)
        | .ok entries =>
          match visitEntries decode query transport current entries { walk with dirs := dirs } with
          | .error e => some (.error e)
          | .ok (walk, true) => some (.ok walk)
          | .ok (walk, false) => searchFrom rounds walk

/-- `RemoteFileTools.search`. -/
def search (rounds : ℕ) (path : RemotePath) : Option (Except FileError Walk) :=
  searchFrom decode query transport rounds { dirs := [path] }

end

/-! ### The container backend -/

/-- The standard output of the fixed commands, where they succeed. -/
structure Container where
  cat : RemotePath → Option Bytes
  find : RemotePath → Option (List Char)

/-- `int(text, 8)` of plain digits. -/
def parseOctal? (text : List Char) : Option ℕ :=
  if text ≠ [] ∧ text.all (fun c => '0' ≤ c && c ≤ '7') then some (Nat.ofDigitChars 8 text 0) else none

/-- One line that `find` printed. -/
def parseEntry (line : List Char) : Except FileError FileMetadata :=
  match line.splitOn '|' with
  | [entryPath, fileType, size, mode, _, _, _] =>
    match parseInt? size, parseOctal? mode with
    | some size, some mode => .ok ⟨purePosixPath (String.ofList entryPath), size, mode, decide (fileType = ['l'])⟩
    | _, _ => .error .value
  | _ => .error (.containerFileOperationUnsupported "unparseable find output")

def parseEntries : List (List Char) → Except FileError (List FileMetadata)
  | [] => .ok []
  | line :: lines => do
    let entry ← parseEntry line
    let entries ← parseEntries lines
    .ok (entry :: entries)

/-- `ContainerFileBackend`. -/
def containerFileBackend (container : Container) : Transport where
  listDirectory path := match container.find path with
    | none => .error (.containerFileOperationUnsupported "container operation failed")
    | some output => parseEntries (bareLines isLineBreak output)
  readBytes path maxBytes := match container.cat path with
    | none => .error (.containerFileOperationUnsupported "container operation failed")
    | some stdout => .ok (stdout.take maxBytes)

/-! ### Directory trees -/

/-- What is reported of a node; `typed` when the server of the host reports the type bits. -/
structure Attributes where
  perm : Fin 4096
  typed : Bool
  size : ℕ
  uid : ℕ
  gid : ℕ
  modifiedNs : ℕ

inductive Node
  | file (attributes : Attributes) (content : Bytes)
  | dir (attributes : Attributes) (entries : List (String × Node))
  | link (attributes : Attributes)

namespace Node

def attributes : Node → Attributes
  | file attributes _ => attributes
  | dir attributes _ => attributes
  | link attributes => attributes

def entries : Node → List (String × Node)
  | dir _ entries => entries
  | _ => []

def isLink : Node → Bool
  | link _ => true
  | _ => false

def isFile : Node → Bool
  | file _ _ => true
  | _ => false

def content : Node → Bytes
  | file _ content => content
  | _ => []

def typeBits : Node → ℕ
  | file _ _ => 0o100000
  | dir _ _ => 0o040000
  | link _ => 0o120000

def typeLetter : Node → Char
  | file _ _ => 'f'
  | dir _ _ => 'd'
  | link _ => 'l'

/-- The node at a path, through directories only. -/
def lookup (node : Node) : List String → Option Node
  | [] => some node
  | part :: parts => (node.entries.lookup part).bind fun child => child.lookup parts

end Node

/-- A name that an entry of a directory can have. -/
def FileName (name : String) : Prop := name ≠ "" ∧ name ≠ "." ∧ name ≠ ".." ∧ '/' ∉ name.toList

/-- A path below which there is a finite tree. -/
structure Tree where
  start : RemotePath
  absolute : start.root ≠ none
  plain : ∀ part ∈ start.parts, FileName part
  root : Node
  isDir : root.isFile = false ∧ root.isLink = false
  nodup : ∀ parts node, root.lookup parts = some node → (node.entries.map Prod.fst).Nodup
  named : ∀ parts node, root.lookup parts = some node → ∀ entry ∈ node.entries, FileName entry.1

/-- `path / name`. -/
def RemotePath.child (path : RemotePath) (name : String) : RemotePath :=
  { path with parts := path.parts ++ (purePosixPath name).parts }

namespace Tree
variable (tree : Tree)

def node? (path : RemotePath) : Option Node :=
  if path.root = tree.start.root ∧ tree.start.parts <+: path.parts then
    tree.root.lookup (path.parts.drop tree.start.parts.length)
  else none

/-- What the server of a host reports of a node. -/
def hostMetadata (path : RemotePath) (node : Node) : FileMetadata where
  path := path
  size := node.attributes.size
  mode := node.attributes.perm.val + if node.attributes.typed then node.typeBits else 0
  isSymlink := node.isLink

/-- The transport to a host; its server may list `.` and `..` too. -/
def host (dots : Bool) : Transport where
  listDirectory path := match tree.node? path with
    | some (.dir attributes entries) =>
      .ok ((if dots then [hostMetadata (RemotePath.child path ".") (.dir attributes entries),
          hostMetadata (RemotePath.child path "..") (.dir attributes [])] else []) ++
        entries.map fun entry => hostMetadata (RemotePath.child path entry.1) entry.2)
    | _ => .error .remotePath
  readBytes path maxBytes := match tree.node? path with
    | some (.file _ content) => .ok (content.take maxBytes)
    | _ => .error .remotePath

/-- The path of an entry as `find` prints it. -/
def entryText (path : RemotePath) (name : String) : List Char :=
  let text := path.str.toList
  (if text.getLast? = some '/' then text else text ++ ['/']) ++ name.toList

/-- `%T@`, the seconds with ten digits after the point. -/
def timeText (ns : ℕ) : List Char :=
  Nat.toDigits 10 (ns / 1000000000) ++ '.' :: (Nat.toDigits 10 (ns % 1000000000)).leftpad 9 '0' ++ ['0']

/-- `%p|%y|%s|%m|%u|%g|%T@`. -/
def findLine (path : RemotePath) (entry : String × Node) : List Char :=
  let attributes := entry.2.attributes
  ['|'].intercalate [entryText path entry.1, [entry.2.typeLetter], Nat.toDigits 10 attributes.size,
    Nat.toDigits 8 attributes.perm.val, Nat.toDigits 10 attributes.uid, Nat.toDigits 10 attributes.gid,
    timeText attributes.modifiedNs]

def container : Container where
  cat path := match tree.node? path with
    | some (.file _ content) => some content
    | _ => none
  find path := (tree.node? path).map fun node => node.entries.flatMap fun entry => findLine path entry ++ ['\n']

end Tree
end IncidentLens.RemoteOps.Files
