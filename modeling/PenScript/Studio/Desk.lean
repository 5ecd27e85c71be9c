import PenScript.Studio
import PenScript.Studio.FileTree

/-!
# The studio at its desk

A studio together with the files it loads from and saves to. What files are is left
open: a file system is what answers when a text is read or written, and says why
where it refuses. Loading and saving ask it and hand its answer to the studio as an
action. All other actions leave the files alone, and loading does too.

A tree of folders and files is one file system. With it a studio can be run without
touching any real files.
-/

namespace PenScript

/-- What a studio asks of files. -/
class FileSystem (σ : Type) where
  /-- The files there are at first. -/
  initial : σ
  /-- The text of the file at a path, or why there is none. -/
  readText : σ → String → Except String String
  /-- The files with a text at a path, in place of what was there, or why it
  cannot be put there. -/
  writeText : σ → String → String → Except String σ

instance : FileSystem FileTree where
  initial := {}
  readText tree path := (tree.readText path).mapError FileFault.message
  writeText tree path text := (tree.writeText path text).mapError FileFault.message

/-- A studio and the files within its reach. -/
structure Workplace (σ : Type) [FileSystem σ] where
  studio : Studio
  tree : σ := FileSystem.initial

/-- A workplace with a tree of files. -/
abbrev Desk := Workplace FileTree

namespace Workplace

section

variable {σ : Type} [FileSystem σ] (desk : Workplace σ)

/-- Does an action that asks nothing of the files. -/
def act (action : Action) : Workplace σ :=
  { desk with studio := desk.studio.act action }

/-- Loads the file at the path. -/
def load : Workplace σ :=
  desk.act (.load (FileSystem.readText desk.tree desk.studio.path))

/-- Saves the script to the path. -/
def save : Workplace σ :=
  match FileSystem.writeText desk.tree desk.studio.path desk.studio.source with
  | .ok tree => { studio := desk.studio.act (.save (.ok ())), tree }
  | .error reason => desk.act (.save (.error reason))

end

end Workplace

end PenScript
