import PenScript.NameMap

/-!
# A tree of folders and files

A file system made of data, so that files can be read and written without touching
any. Which folders there are does not change: the one that is worked in, those on the
way to it from the root, and some others. Files come and go. What matters are the
answers to reading and writing a file by its path, in particular the explanation when
there is no such file, when the path names a folder, or when a file is no text. Nothing
that is known of the studio rests on this one; it does with any files, whatever they
answer.

A path is cut at slashes and followed word by word, from the root if it starts
with a slash and from the working folder otherwise. One dot stays, two dots go
up, and nothing is above the root. Going up from the working folder leaves it for
good, since its name is not known. Every word that is followed by another has to
lead into a folder, even if the next word would lead out of it again. A slash at
the end makes the last word name a folder; there is no reading a file under such
a name, and no writing at all.
-/

namespace PenScript

/-- Why a file cannot be read or written. -/
inductive FileFault where
  | notFound | notFolder | isFolder | nameTooLong | nulInName | notText
deriving DecidableEq, Repr

/-- The explanation of a fault. -/
def FileFault.message : FileFault → String
  | notFound => "No such file or directory (os error 2)"
  | notFolder => "Not a directory (os error 20)"
  | isFolder => "Is a directory (os error 21)"
  | nameTooLong => "File name too long (os error 36)"
  | nulInName => "file name contained an unexpected NUL byte"
  | notText => "stream did not contain valid UTF-8"

/-- A place in the tree: the names on the way to it from the root, innermost first. -/
abbrev Place := List String

/-- A place as a text: each name after a slash, from the root. -/
def Place.text : Place → String
  | [] => ""
  | name :: outer => Place.text outer ++ "/" ++ name

/-- Folders, which stay, and files, which come and go. -/
structure FileTree where
  /-- The working folder. It and the folders on the way to it are there. Its
  own name is taken to be the empty one, which no path spells, so that no path
  leads back into it. -/
  home : Place := ["", "tmp"]
  /-- Other folders that are there. -/
  folders : List Place :=
    ["bin", "boot", "dev", "etc", "home", "lib", "media", "mnt", "opt", "proc",
      "root", "run", "sbin", "srv", "sys", "tmp", "usr",
      "var"].map (fun name => [name]) ++
    ["bin", "lib", "local", "share"].map (fun name => [name, "usr"]) ++
    ["lib", "log", "tmp"].map fun name => [name, "var"]
  /-- A file that is always there, always empty, and takes whatever is written. -/
  sink : Place := ["null", "dev"]
  /-- The bytes of the other files, each under the text of its place. -/
  files : NameMap ByteArray := .empty

namespace FileTree

/-- Whether there is a folder at a place. -/
def isFolder (tree : FileTree) (place : Place) : Bool :=
  place.isSuffixOf tree.home || tree.folders.contains place

/-- Whether there is a file at a place. -/
def isFile (tree : FileTree) (place : Place) : Bool :=
  place == tree.sink || tree.files.contains place.text

/-- The same tree with other files. -/
def withFiles (tree : FileTree) (files : NameMap ByteArray) : FileTree :=
  { tree with files }

/-! ## Following a path -/

/-- The longest name a file or a folder can have, in bytes. -/
def maxName : Nat := 255

/-- The longest path that is followed, in bytes. -/
def maxPath : Nat := 4095

/-- What a path leads to. -/
inductive Target where
  /-- A folder. -/
  | folder
  /-- A file at a place. It need not exist. -/
  | file (place : Place)
  /-- A name in a folder, written as if it were a folder itself. -/
  | fileAsFolder (outer : Place) (name : String)
deriving DecidableEq, Repr

/-- Why a name in a folder, which is no folder there, does not lead further. -/
def deadEnd (tree : FileTree) (outer : Place) (name : String) : FileFault :=
  if maxName < name.utf8ByteSize then .nameTooLong
  else if tree.isFile (name :: outer) then .notFolder
  else .notFound

/-- Follows the words of a path from a folder. The path ends in a slash or not. -/
def follow (tree : FileTree) (endsInSlash : Bool) (place : Place) :
    List String → Except FileFault Target
  | [] => .ok .folder
  | word :: rest =>
      if word = "." then tree.follow endsInSlash place rest
      else if word = ".." then tree.follow endsInSlash place.tail rest
      else if tree.isFolder (word :: place) then
        tree.follow endsInSlash (word :: place) rest
      else if !rest.isEmpty then .error (tree.deadEnd place word)
      else if endsInSlash then .ok (.fileAsFolder place word)
      else if maxName < word.utf8ByteSize then .error .nameTooLong
      else .ok (.file (word :: place))

/-- Finds out what a path leads to. -/
def resolve (tree : FileTree) (path : String) : Except FileFault Target :=
  let cs := path.toList
  if '\x00' ∈ cs then .error .nulInName
  else if path.isEmpty then .error .notFound
  else if maxPath < path.utf8ByteSize then .error .nameTooLong
  else
    let words :=
      ((cs.splitOnP (· == '/')).filter fun word => !word.isEmpty).map String.ofList
    let start := if cs.head? == some '/' then [] else tree.home
    tree.follow (cs.getLast? == some '/') start words

/-! ## Reading and writing -/

/-- The bytes of the file at a place. -/
def bytesAt (tree : FileTree) (place : Place) : Except FileFault ByteArray :=
  if place = tree.sink then .ok .empty
  else match tree.files.get? place.text with
    | some bytes => .ok bytes
    | none => .error .notFound

/-- The bytes of the file at a path. -/
def readBytes (tree : FileTree) (path : String) : Except FileFault ByteArray := do
  match ← tree.resolve path with
  | .folder => .error .isFolder
  | .fileAsFolder outer name => .error (tree.deadEnd outer name)
  | .file place => tree.bytesAt place

/-- The text of the file at a path. -/
def readText (tree : FileTree) (path : String) : Except FileFault String := do
  match String.fromUTF8? (← tree.readBytes path) with
  | some text => .ok text
  | none => .error .notText

/-- Puts bytes at a place, instead of what was there. -/
def put (tree : FileTree) (place : Place) (bytes : ByteArray) : FileTree :=
  if place = tree.sink then tree
    else tree.withFiles (tree.files.insert place.text bytes)

/-- Writes the file at a path, in place of what it held. -/
def writeBytes (tree : FileTree) (path : String) (bytes : ByteArray) :
    Except FileFault FileTree := do
  match ← tree.resolve path with
  | .folder | .fileAsFolder _ _ => .error .isFolder
  | .file place => .ok (tree.put place bytes)

/-- Writes a text to the file at a path. -/
def writeText (tree : FileTree) (path text : String) : Except FileFault FileTree :=
  tree.writeBytes path text.toUTF8

end FileTree

end PenScript
