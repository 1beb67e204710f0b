/-
# Directories

Files and directories stand under paths from the root.  A name is read as a path, which starts in
the working directory unless it begins with a separator; empty components and `.` are passed over,
and `..` leads to the directory around.  A name that begins with `~` starts in a home directory.

* `Directory.expand` replaces `~` by the home directory;
* `Directory.find` follows a name through directories to what stands there, or says what is in the
  way, and `Directory.read` gives the content of the file;
* `Directory.openToAppend` makes sure that a file is there, and opens a stream to add to it;
* `Directory.append` adds text at the end of the file of a stream;
* `Directory.rename`, `Directory.remove` move and remove what stands under a path.

A stream stays with its file when this is moved or removed.
-/
import IgnoreRules.Text.Quoted
import IgnoreRules.Text.Split

namespace IgnoreRules

/-- What can stand under a path. -/
inductive Node where
  | file (content : ByteArray)
  | directory

/-- Files are the same if they hold the same bytes. -/
instance : DecidableEq Node
  | .file content, .file other =>
      decidable_of_iff (content.data = other.data)
        ⟨fun h => congrArg Node.file (ByteArray.ext h), fun h => by cases h; rfl⟩
  | .file _, .directory => isFalse nofun
  | .directory, .file _ => isFalse nofun
  | .directory, .directory => isTrue rfl

/-- What a program can be kept from. -/
inductive Access where
  /-- To read a file. -/
  | read
  /-- To write to a file, or to make, move and remove what stands in a directory. -/
  | write
  /-- To pass through a directory. -/
  | search
deriving DecidableEq, Repr

/-- Where the file of a stream is. -/
inductive Stream where
  | under (path : List String)
  /-- The file was removed, as the one with this number. -/
  | removed (number : Nat)
  | closed
deriving DecidableEq, Repr

/-- What was done to files. -/
inductive FileChange where
  /-- An empty file was made. -/
  | make (path : List String)
  /-- Text was added at the end of a file. -/
  | append (path : List String) (text : String)
  | move (source target : List String)
  | remove (path : List String)
deriving DecidableEq, Repr

/-- A working directory with the files and directories that are known. -/
structure Directory where
  /-- The components of the path to the working directory. -/
  base : List String
  /-- What stands under which path. -/
  nodes : List (List String × Node)
  /-- What the program may not do with what stands under a path. -/
  refused : List (List String × Access) := []
  /-- The home directories of users by their names; without a name, that of the program's user. -/
  homes : List (String × String) := []
  /-- Where the files of the streams are, by the numbers of these. -/
  streams : List Stream := []
  /-- The files that were removed, by their numbers. -/
  removed : List ByteArray := []
  /-- What was done to the files, the earliest first. -/
  changes : List FileChange := []

/-- Where a path leads when what stands under `source` is moved to `target`. -/
def movedPath (source target path : List String) : List String :=
  if source.isPrefixOf path then target ++ path.drop source.length else path

/-- A stream goes with its file when this is moved. -/
def Stream.moved (source target : List String) : Stream → Stream
  | .under path => .under (movedPath source target path)
  | s => s

/-- A stream keeps its file when this is removed as the one with a number. -/
def Stream.dropped (path : List String) (number : Nat) : Stream → Stream
  | .under p => if p = path then .removed number else .under p
  | s => s

namespace Directory

/-! ## Names -/

/-- The components of a name. -/
def components (name : String) : List String :=
  (Text.split "/" name).filter fun p => p ≠ "" && p ≠ "."

/-- What a name from the root begins with: two separators stay two, and any other number of them
counts as one. -/
def rootOf? (name : String) : Option String :=
  match name.toList with
  | '/' :: '/' :: '/' :: _ => some "/"
  | '/' :: '/' :: _ => some "//"
  | '/' :: _ => some "/"
  | _ => none

/-- A name in its plainest form. -/
def plainName (name : String) : String :=
  let parts := Text.join "/" (components name)
  match rootOf? name with
  | some root => root ++ parts
  | none => if parts.isEmpty then "." else parts

/-- A path from the root as a name. -/
def nameOf (path : List String) : String := "/" ++ Text.join "/" path

/-- The path at which following a name starts. -/
def origin (d : Directory) (name : String) : List String :=
  if (rootOf? name).isSome then [] else d.base

/-- One component further along a path. -/
def stepTo (path : List String) (p : String) : List String :=
  if p = ".." then path.dropLast else path ++ [p]

/-- A way through directories: each of them with the component that leads on from there. -/
abbrev Way := List (List String × String)

/-- The way that components lead from a path on. -/
def wayFrom (path : List String) : List String → Way
  | [] => []
  | p :: ps => (path, p) :: wayFrom (stepTo path p) ps

/-- The way from a path down to what stands below it. -/
def wayDown (path : List String) : List String → Way
  | [] => []
  | p :: ps => (path, p) :: wayDown (path ++ [p]) ps

/-- The path that a name stands for when every `..` takes back the component before it. -/
def fullPath (d : Directory) (name : String) : List String :=
  (components name).foldl stepTo (d.origin name)

/-- The paths that a name leads through, up to the one it leads to. -/
def places (d : Directory) (name : String) : List (List String) :=
  (wayFrom (d.origin name) (components name)).map Prod.fst ++ [d.fullPath name]

/-- A name with all the directories that lead to it. -/
def fullName (d : Directory) (name : String) : String :=
  (rootOf? name).getD "/" ++ Text.join "/" (d.fullPath name)

/-! ## Obstacles -/

/-- What is in the way of reading or writing a file. -/
inductive Obstacle where
  /-- The name holds a null character. -/
  | nullCharacter
  /-- The name has too many bytes, or one of its components has. -/
  | tooLong
  /-- There is nothing under the name, or it leads through something that is not there. -/
  | missing
  /-- The name leads through a file. -/
  | notDirectory
  /-- A directory stands where a file is looked for. -/
  | isDirectory
  /-- The program may not do this. -/
  | denied
deriving DecidableEq, Repr

/-- The wording of an obstacle for a name. -/
def Obstacle.message (name : String) : Obstacle → String
  | .nullCharacter => "embedded null byte"
  | .tooLong => "[Errno 36] File name too long: " ++ Text.quote name
  | .missing => "[Errno 2] No such file or directory: " ++ Text.quote name
  | .notDirectory => "[Errno 20] Not a directory: " ++ Text.quote name
  | .isDirectory => "[Errno 21] Is a directory: " ++ Text.quote name
  | .denied => "[Errno 13] Permission denied: " ++ Text.quote name

/-- The name of the kind of an obstacle. -/
def Obstacle.name : Obstacle → String
  | .nullCharacter => "ValueError"
  | .tooLong => "OSError"
  | .missing => "FileNotFoundError"
  | .notDirectory => "NotADirectoryError"
  | .isDirectory => "IsADirectoryError"
  | .denied => "PermissionError"

/-! ## Home directories -/

/-- The name of a home directory without separators at its end. -/
def homeName (home : String) : String :=
  let name := (home.toList.reverse.dropWhile (· = '/')).reverse
  if name.isEmpty then "/" else String.ofList name

/-- A name below a home directory. -/
def below (home : String) (parts : List String) : String :=
  (rootOf? home).getD "" ++ Text.join "/" (components home ++ parts)

/-- The name with the home directory of its user in place of `~` at its front; `none` where no home
directory is known.  A user with a null character in the name is looked for in vain. -/
def expand (d : Directory) (name : String) : Except Obstacle (Option String) :=
  match rootOf? name, components name with
  | none, p :: ps =>
      match p.toList with
      | '~' :: user =>
          if '\x00' ∈ user then .error .nullCharacter
          else
            let home? := (d.homes.lookup (String.ofList user)).map homeName
            .ok ((home?.filter fun home => home.toList.head? ≠ some '~').map (below · ps))
      | _ => .ok (some name)
  | _, _ => .ok (some name)

/-! ## Finding -/

/-- The most bytes of a name. -/
def maxNameBytes : Nat := 4095

/-- The most bytes of a component of a name. -/
def maxComponentBytes : Nat := 255

/-- The path leads on to something else. -/
def leadsOn (d : Directory) (path : List String) : Bool :=
  path.isPrefixOf d.base || d.nodes.any fun e => path.isPrefixOf e.1 && path ≠ e.1

/-- What stands under a path.  Whatever leads on to something else is a directory. -/
def node? (d : Directory) (path : List String) : Option Node :=
  if d.leadsOn path then some .directory else d.nodes.lookup path

/-- The program may do this with what stands under the path. -/
def allows (d : Directory) (path : List String) (access : Access) : Bool :=
  !d.refused.contains (path, access)

/-- What is in the way.  Only a directory can be passed through, if it may be searched, and only in a
directory does the length of a component matter. -/
def barrier? (d : Directory) : Way → Option Obstacle
  | [] => none
  | (path, p) :: rest =>
      match d.node? path with
      | none => some .missing
      | some (.file _) => some .notDirectory
      | some .directory =>
          if !d.allows path .search then some .denied
          else if p.utf8ByteSize > maxComponentBytes then some .tooLong
          else d.barrier? rest

/-- Why a name cannot be looked up at all. -/
def nameFault? (name : String) : Option Obstacle :=
  if '\x00' ∈ name.toList then some .nullCharacter
  else if name.utf8ByteSize > maxNameBytes then some .tooLong
  else none

/-- What is in the way of looking up a name. -/
def obstacle? (d : Directory) (name : String) (way : Way) : Option Obstacle :=
  (nameFault? name).or (d.barrier? way)

/-- The path that a name leads to, whatever stands there. -/
def place? (d : Directory) (name : String) : Except Obstacle (List String) :=
  match d.obstacle? (plainName name) (wayFrom (d.origin name) (components name)) with
  | some o => .error o
  | none => .ok (d.fullPath name)

/-- What a name leads to. -/
def find (d : Directory) (name : String) : Except Obstacle Node :=
  match d.place? name with
  | .error o => .error o
  | .ok path =>
      match d.node? path with
      | some n => .ok n
      | none => .error .missing

/-- The content of the file of a name. -/
def read (d : Directory) (name : String) : Except Obstacle ByteArray :=
  match d.place? name with
  | .error o => .error o
  | .ok path =>
      match d.node? path with
      | none => .error .missing
      | some n =>
          if !d.allows path .read then .error .denied
          else
            match n with
            | .file content => .ok content
            | .directory => .error .isDirectory

/-- What the program sees under a path from the root. -/
def seen? (d : Directory) (path : List String) : Option Node :=
  match d.obstacle? (nameOf path) (wayDown [] path) with
  | some _ => none
  | none => d.node? path

/-! ## Changing files -/

/-- Puts a node under a path. -/
def write (d : Directory) (path : List String) (n : Node) : Directory :=
  { d with nodes := (path, n) :: d.nodes.filter fun e => e.1 ≠ path }

/-- Notes what was done to the files. -/
def note (d : Directory) (c : FileChange) : Directory := { d with changes := d.changes ++ [c] }

/-- Lets the program do everything with what stands under a path. -/
def free (d : Directory) (path : List String) : Directory :=
  { d with refused := d.refused.filter fun e => e.1 ≠ path }

/-- Makes the file of a path, if nothing is there.  The program may do everything with it. -/
def make (d : Directory) (path : List String) : Directory :=
  match d.node? path with
  | none => ((d.free path).write path (.file .empty)).note (.make path)
  | some _ => d

/-- Puts down that a directory is there, which what stood in it may not say any more. -/
def keep (d : Directory) (path : List String) : Directory := d.write path .directory

/-- Moves what stands under a path, and all that it leads to, to another path. -/
def rename (d : Directory) (source target : List String) : Directory :=
  let d := d.keep source.dropLast
  { d with
    base := movedPath source target d.base
    nodes := d.nodes.map fun e => (movedPath source target e.1, e.2)
    refused := d.refused.map fun e => (movedPath source target e.1, e.2)
    streams := d.streams.map (Stream.moved source target)
    changes := d.changes ++ [.move source target] }

/-- Removes the file of a path, which keeps its content for the streams that it is open to. -/
def remove (d : Directory) (path : List String) (content : ByteArray) : Directory :=
  let d := (d.keep path.dropLast).free path
  { d with
    nodes := d.nodes.filter fun e => e.1 ≠ path
    streams := d.streams.map (Stream.dropped path d.removed.length)
    removed := d.removed ++ [content]
    changes := d.changes ++ [.remove path] }

/-! ## Streams -/

/-- Where the file of a stream is. -/
def stream (d : Directory) (s : Nat) : Stream := d.streams[s]?.getD .closed

/-- Says where the file of a stream is. -/
def setStream (d : Directory) (s : Nat) (stream : Stream) : Directory :=
  { d with streams := d.streams.set s stream }

/-- Adds a stream. -/
def addStream (d : Directory) (stream : Stream) : Directory :=
  { d with streams := d.streams ++ [stream] }

/-- Closes a stream. -/
def close (d : Directory) (s : Nat) : Directory := d.setStream s .closed

/-- The content of the file of a stream. -/
def contentOf (d : Directory) (s : Nat) : ByteArray :=
  match d.stream s with
  | .under path =>
      match d.node? path with
      | some (.file content) => content
      | _ => .empty
  | .removed number => d.removed[number]?.getD .empty
  | .closed => .empty

/-- Adds text at the end of the file of a stream. -/
def append (d : Directory) (s : Nat) (text : String) : Directory :=
  match d.stream s with
  | .under path =>
      (d.write path (.file (d.contentOf s ++ text.toUTF8))).note (.append path text)
  | .removed number =>
      { d with removed := d.removed.set number (d.contentOf s ++ text.toUTF8) }
  | .closed => d

/-- Whether the file of a path can be opened to add to it, where `name` is the name that the path
is given by. -/
def openable (d : Directory) (name : String) (path : List String) : Except Obstacle Unit :=
  match d.obstacle? name (wayDown [] path) with
  | some o => .error o
  | none =>
      match d.node? path with
      | some .directory => .error .isDirectory
      | some (.file _) => if d.allows path .write then .ok () else .error .denied
      | none => if d.allows path.dropLast .write then .ok () else .error .denied

/-- Opens a stream to add to the file of a name, which is made if it is not there.  Gives the number
of the stream. -/
def openToAppend (d : Directory) (name : String) : Except Obstacle (Nat × Directory) :=
  match d.openable (d.fullName name) (d.fullPath name) with
  | .error o => .error o
  | .ok () =>
      let path := d.fullPath name
      let d := d.make path
      .ok (d.streams.length, d.addStream (.under path))

end Directory

end IgnoreRules
