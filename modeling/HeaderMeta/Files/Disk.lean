import HeaderMeta.Files.Fault
import HeaderMeta.Files.Tree
import HeaderMeta.Text.Split

/-!
# Looking up and writing under paths

A `Disk` is a tree from the root on and the place of the working directory in it. `Disk.walk` takes
the parts of a path one by one and follows links as it meets them; what it does with the last name
depends on the `Purpose` of the walk. Reading, making directories and writing are built on it. An
operation that changes the disk gives the disk back even if it fails, as it may have done a part.
-/

namespace HeaderMeta.Files

/-- A tree from the root on, and where in it relative paths start. -/
structure Disk where
  root : Tree
  cwd : List String

/-- What a path is followed for, which decides what becomes of its last name. -/
inductive Purpose where
  /-- To get at what is there: a link is followed, and the name must exist. -/
  | reach
  /-- To make a directory under the name: a link is not followed. -/
  | make
  /-- To write a file: a link is followed, and no slash may follow the name. -/
  | write
deriving DecidableEq

/-- Where a path leads. -/
inductive Spot where
  /-- To a directory. -/
  | directory (loc : List String)
  /-- To a name in a directory. What is there, if anything, is no directory. -/
  | entry (loc : List String) (name : String)

namespace Disk

/-- The most links that one path may go through. -/
def maxLinks : Nat := 40

/-- Where the parts of a path start. -/
def start (path : String) (loc : List String) : List String :=
  if Path.isAbsolute path then [] else loc

/-- Follows the parts of a path from a directory on; `links` more links may be gone through. -/
def walk (root : Tree) (purpose : Purpose) (links : Nat) (loc : List String) :
    List String → Except Fault Spot
  | [] => .ok (.directory loc)
  | p :: ps =>
    if Path.isVoid p then walk root purpose links loc ps
    else if p = ".." then walk root purpose links loc.dropLast ps
    else if purpose = .write ∧ ps ≠ [] ∧ ps.all (· == "") then .error .isADirectory
    else if Path.maxNameBytes < Text.size p.toList then .error .nameTooLong
    else
      match root.find? (loc ++ [p]) with
      | none =>
        if ps.isEmpty ∧ purpose ≠ .reach then .ok (.entry loc p) else .error .notFound
      | some (.file _) => if ps.isEmpty then .ok (.entry loc p) else .error .notADirectory
      | some (.dir _) => walk root purpose links (loc ++ [p]) ps
      | some (.link target) =>
        if ps.isEmpty ∧ purpose = .make then .ok (.entry loc p)
        else
          match links with
          | 0 => .error .tooManyLinks
          | links + 1 => walk root purpose links (start target loc) (Path.parts target ++ ps)
termination_by ps => (links, ps.length)

/-- Follows a path from the working directory on. -/
def locate (d : Disk) (purpose : Purpose) (path : String) (parts : List String) :
    Except Fault Spot :=
  if path = "" then .error .notFound
  else if Path.maxBytes < Text.size path.toList then .error .nameTooLong
  else walk d.root purpose maxLinks (start path d.cwd) parts

/-- What is under a path, links followed. -/
def get (d : Disk) (path : String) : Except Fault Tree := do
  let loc := match ← d.locate .reach path (Path.parts path) with
    | .directory loc => loc
    | .entry loc name => loc ++ [name]
  match d.root.find? loc with
  | some t => return t
  | none => throw .notFound

/-- Whether anything is under a path. -/
def exists? (d : Disk) (path : String) : Bool :=
  (d.get path).isOk

/-- The entries of the directory under a path. -/
def directory? (d : Disk) (path : String) : Option (List (String × Tree)) :=
  match d.get path with
  | .ok (.dir es) => some es
  | _ => none

/-- The content of the file under a path. -/
def file? (d : Disk) (path : String) : Option Content :=
  match d.get path with
  | .ok (.file c) => some c
  | _ => none

/-- The disk with a tree put at a place. -/
def put (d : Disk) (loc : List String) (t : Tree) : Disk :=
  { d with root := t.put loc d.root }

/-- Makes a directory. Slashes behind its name do not matter. -/
def makeDirectory (d : Disk) (path : String) : Except Fault Disk := do
  let parts := ((Path.parts path).reverse.dropWhile (· == "")).reverse
  match ← d.locate .make path parts with
  | .directory _ => throw .alreadyExists
  | .entry loc name =>
    match d.root.find? (loc ++ [name]) with
    | some _ => throw .alreadyExists
    | none => return d.put (loc ++ [name]) .empty

/-- Makes the first of a list of directories, of which each is the parent of the one before it, and
as many of the others as it needs. -/
def makeLineage (d : Disk) : List String → Disk × Except Fault Unit
  | [] => (d, .ok ())
  | path :: above =>
    match d.makeDirectory path with
    | .ok d' => (d', .ok ())
    | .error .notFound =>
      match d.makeLineage above with
      | (d', .error e) => (d', .error e)
      | (d', .ok ()) =>
        match d'.makeDirectory path with
        | .ok d'' => (d'', .ok ())
        | .error e => (d', if (d'.directory? path).isSome then .ok () else .error e)
    | .error e => (d, if (d.directory? path).isSome then .ok () else .error e)

/-- Makes a directory and those above it that are missing. -/
def makeDirectories (d : Disk) (path : String) : Disk × Except Fault Unit :=
  d.makeLineage (Path.lineage path)

/-- Writes a file, in place of the content that it may have. -/
def writeFile (d : Disk) (path : String) (data : List UInt8) : Except Fault Disk := do
  match ← d.locate .write path (Path.parts path) with
  | .directory _ => throw .isADirectory
  | .entry loc name =>
    match d.root.find? (loc ++ [name]) with
    | some (.file .unreadable) => throw .inputOutput
    | _ => return d.put (loc ++ [name]) (.file (.bytes data))

/-- Makes a symbolic link, unless something is there already. -/
def makeLink (d : Disk) (path target : String) : Except Fault Disk := do
  match ← d.locate .make path (Path.parts path) with
  | .directory _ => throw .alreadyExists
  | .entry loc name =>
    match d.root.find? (loc ++ [name]) with
    | some _ => throw .alreadyExists
    | none => return d.put (loc ++ [name]) (.link target)

end Disk

end HeaderMeta.Files
