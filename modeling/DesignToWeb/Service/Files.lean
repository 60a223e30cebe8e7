/-!
# Files

The files on disk by their paths, and the order in which an archive lists the
files of a directory.
-/

namespace DesignToWeb.Service

/-- The names from the root down to a file. -/
abbrev Path := List String

def Path.ofText (s : String) : Path :=
  ((s.toList.splitOn '/').map String.ofList).filter (· != "")

def Path.text (p : Path) : String := "/".intercalate p

inductive Content where
  | text (text : String)
  /-- The files of an archive in its order. -/
  | archive (entries : List (Path × Content))

abbrev Files := List (Path × Content)

namespace Files

def write (files : Files) (path : Path) (content : Content) : Files :=
  match files with
  | [] => [(path, content)]
  | (p, c) :: rest => if p = path then (p, content) :: rest else (p, c) :: write rest path content

def removeTree (files : Files) (dir : Path) : Files :=
  files.filter fun file ↦ !(dir.isPrefixOf file.1)

/-- The files without those in a directory, of which some stay. -/
def removeTreeBut (files : Files) (stays : Path → Bool) (dir : Path) : Files :=
  files.filter fun file ↦ !(dir.isPrefixOf file.1) || stays file.1

def erase (files : Files) (path : Path) : Files := files.filter (·.1 != path)

/-- The files in a directory, by their paths inside it. -/
def below (files : Files) (dir : Path) : Files :=
  (files.filter fun file ↦ dir.isPrefixOf file.1).map fun file ↦
    (file.1.drop dir.length, file.2)

/-- Whether a path comes before another, or is the same, when a directory lists its files first
and then each of its directories. -/
def listedBefore : Path → Path → Bool
  | [], _ => true
  | _, [] => false
  | [a], [b] => decide (a ≤ b)
  | [_], _ => true
  | _, [_] => false
  | a :: as, b :: bs => if a = b then listedBefore as bs else decide (a ≤ b)

/-- The files in a directory in the order in which they are listed. -/
def listing (files : Files) (dir : Path) : Files :=
  (files.below dir).mergeSort fun f g ↦ listedBefore f.1 g.1

end Files
end DesignToWeb.Service
