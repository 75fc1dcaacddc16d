import Lineside.Error

/-!
What the program sees of the files around it: the bytes of a file and what is in a directory. Where
they come from is left open.
-/

namespace Lineside

structure Files where
  read : String → Except PathError ByteArray
  list : String → Except PathError (List DirectoryEntry)

namespace FileTree

def view (tree : FileTree) : Files := { read := tree.read, list := tree.list }

end FileTree

namespace Files

/-- What is in a file, where a refused path counts as failure of an activity. -/
def readDuring (files : Files) (activity : Activity) (path : String) : Outcome ByteArray :=
  Outcome.during activity (Outcome.because .path (files.read path))

end Files

end Lineside
