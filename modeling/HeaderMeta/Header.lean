import HeaderMeta.Failure
import HeaderMeta.Files.Disk
import HeaderMeta.Text.Utf8

/-!
# Headers of a project

`Header.collect` reads every header below a directory: the files, linked ones included, whose names
have a given extension. Links to directories are not gone through, except that the start may be one.
The order is that of `Files.Tree.visits`, and the first directory or header on the way that fails is
the failure of the whole.
-/

namespace HeaderMeta

open Files

/-- A header that was read. -/
structure Header where
  path : String
  text : String
deriving DecidableEq

namespace Header

/-- The extension that headers have unless another is given. -/
def defaultExtension : String :=
  "hpp"

/-- Reads the header at a stop of a walk, if there is one. -/
def ofVisit? (d : Disk) (extension : String) : Tree.Visit → Except Failure (Option Header)
  | .directory path depth =>
    if Path.maxBytes < Text.size path.toList then .error (.unlisted path depth .nameTooLong)
    else .ok none
  | .other path =>
    match d.file? path with
    | none => .ok none
    | some content =>
      if Path.extension? path = some extension then
        match content with
        | .bytes data => .ok (some ⟨path, String.ofList (Text.Utf8.decode data)⟩)
        | .unreadable => .error (.unreadable path .inputOutput)
      else .ok none

/-- The headers below a directory, in the order of the walk. -/
def collect (d : Disk) (root extension : String) : Except Failure (List Header) :=
  match d.directory? root with
  | none => .error (.noDirectory root)
  | some entries => do
    let found ← (Tree.visits root 0 (.dir entries)).mapM (ofVisit? d extension)
    return found.filterMap id

end Header

end HeaderMeta
