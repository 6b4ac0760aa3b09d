import HeaderMeta.Files.Path
import HeaderMeta.Keyed

/-!
# File trees

A `Tree` is a file, a symbolic link or a directory. What is in a tree is found under a list of names
(`Tree.find?`) and written there with `Tree.put`. `Tree.visits` goes through a tree as a walk does:
a directory comes before what is in it, and the entries of one directory come in the order of their
names' bytes, in whatever order the directory lists them.
-/

namespace HeaderMeta.Files

/-- What reading a file gives. -/
inductive Content where
  | bytes (data : List UInt8)
  /-- The file cannot be read. -/
  | unreadable
deriving DecidableEq

/-- A file, a symbolic link or a directory. -/
inductive Tree where
  | file (content : Content)
  | link (target : String)
  | dir (entries : List (String × Tree))

namespace Tree

/-- The tree without files. -/
def empty : Tree :=
  .dir []

/-- The entries of a directory. -/
def entries : Tree → List (String × Tree)
  | .dir es => es
  | .file _ | .link _ => []

/-- What is found by going down a list of names. -/
def find? (t : Tree) : List String → Option Tree
  | [] => some t
  | n :: loc => (t.entries.lookup n).bind fun u => u.find? loc

/-- Writes a tree at the end of a list of names; directories that are missing on the way are made. -/
def put (new : Tree) : List String → Tree → Tree
  | [], _ => new
  | n :: loc, t => .dir (Keyed.put n (put new loc ((t.entries.lookup n).getD empty)) t.entries)

/-- One stop of a walk. -/
inductive Visit where
  /-- A directory that is to be listed, `depth` names below the start. -/
  | directory (path : String) (depth : Nat)
  /-- A file or link. -/
  | other (path : String)

mutual

/-- The stops of a walk through a tree that is reached under `path`. -/
def visits (path : String) (depth : Nat) : Tree → List Visit
  | .dir es =>
    .directory path depth ::
      ((visitsBelow path depth es).mergeSort fun a b => a.1 ≤ b.1).flatMap Prod.snd
  | .file _ | .link _ => [.other path]

/-- For each entry of a directory its name and the stops of the walk through it. -/
def visitsBelow (path : String) (depth : Nat) : List (String × Tree) → List (String × List Visit)
  | [] => []
  | (n, t) :: es => (n, visits (Path.join path n) (depth + 1) t) :: visitsBelow path depth es

end

mutual

/-- The files of a tree that is reached under `path`, links apart. -/
def files (path : String) : Tree → List (String × Content)
  | .file c => [(path, c)]
  | .link _ => []
  | .dir es => filesBelow path es

/-- The files below the entries of a directory. -/
def filesBelow (path : String) : List (String × Tree) → List (String × Content)
  | [] => []
  | (n, t) :: es => files (Path.join path n) t ++ filesBelow path es

end

/-- The files that `after` has and `before` has not, or not with the same content, by path. -/
def changes (before after : Tree) : List (String × Content) :=
  ((after.files "").filter fun (path, c) => (before.files "").lookup path != some c).mergeSort
    fun a b => a.1 ≤ b.1

end Tree

end HeaderMeta.Files
