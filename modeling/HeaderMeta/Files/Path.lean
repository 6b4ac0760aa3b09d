/-!
# Paths

A path is a text of parts between slashes. Parts that are empty or a single dot change nothing but
demand a directory before them; two dots lead to the parent directory. `Path.parent?` and
`Path.lineage` work on the text alone and know nothing of links.
-/

namespace HeaderMeta.Files.Path

/-- The parts of a text between slashes. There is always one more than there are slashes. -/
def split : List Char → List (List Char)
  | [] => [[]]
  | c :: s =>
    if c = '/' then [] :: split s
    else match split s with
      | [] => [[c]]
      | p :: ps => (c :: p) :: ps

/-- The parts of a path. -/
def parts (path : String) : List String :=
  (split path.toList).map String.ofList

/-- Whether a path starts at the root. -/
def isAbsolute (path : String) : Bool :=
  path.toList.head? == some '/'

/-- A name below a directory. -/
def join (dir name : String) : String :=
  if dir.toList.getLast?.all (· == '/') then dir ++ name else dir ++ "/" ++ name

/-- A part that leads nowhere else. -/
def isVoid (part : String) : Bool :=
  part == "" || part == "."

/-- The names that a path leads through from a directory on, if no link comes in between. -/
def place (loc : List String) (path : String) : List String :=
  (parts path).foldl
    (fun loc p => if isVoid p then loc else if p = ".." then loc.dropLast else loc ++ [p])
    (if isAbsolute path then [] else loc)

/-- The most bytes that the system takes in a path, and in a name. -/
def maxBytes : Nat := 4095

/-- The most bytes of a name. -/
def maxNameBytes : Nat := 255

/-- The path of parts, the first of which may be empty for the root. -/
def ofParts (ps : List String) : String :=
  if ps = [""] then "/" else "/".intercalate ps

/-- The paths on the way from a path up to the root or to the first name, nearest first; `rest` is
what follows the first part, in reverse. -/
def lineageOf (first : String) : (rest : List String) → List String
  | [] => if first = "" then [] else [first]
  | p :: rest =>
    (if isVoid p then [] else [ofParts (first :: (p :: rest).reverse)]) ++ lineageOf first rest

/-- A path and what lies above it, as far as it is named: nearest first, without the root. -/
def lineage (path : String) : List String :=
  match parts path with
  | [] => []
  | first :: rest => lineageOf first rest.reverse

/-- The path without its last name; none for the root and for the empty path. -/
def parent? (path : String) : Option String :=
  match parts path with
  | [] => none
  | first :: rest =>
    match rest.reverse.dropWhile isVoid with
    | [] => if first = "" then none else some ""
    | _ :: above => some (ofParts (first :: (above.dropWhile isVoid).reverse))

/-- The part of a name behind its last dot; none if there is no dot but perhaps a leading one. -/
def extensionOf? (name : List Char) : Option (List Char) :=
  let behind := (name.reverse.takeWhile (· != '.')).reverse
  match name.reverse.dropWhile (· != '.') with
  | [] => none
  | [_] => none
  | _ :: _ :: _ => some behind

/-- The extension of the last name of a path. -/
def extension? (path : String) : Option String :=
  ((split path.toList).getLast?.bind extensionOf?).map String.ofList

end HeaderMeta.Files.Path
