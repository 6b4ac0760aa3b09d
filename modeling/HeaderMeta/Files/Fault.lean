/-!
# Faults of the file system

What the system answers when it cannot do what it was asked for, with its number, its name and its
wording.
-/

namespace HeaderMeta.Files

/-- Why the system refused. -/
inductive Fault where
  /-- There is nothing under the path. -/
  | notFound
  /-- The file is there but cannot be read. -/
  | inputOutput
  /-- There is something under the path already. -/
  | alreadyExists
  /-- What the path goes through is no directory. -/
  | notADirectory
  /-- The path leads to a directory. -/
  | isADirectory
  /-- A name or the path as a whole has too many bytes. -/
  | nameTooLong
  /-- The path goes through more links than are followed. -/
  | tooManyLinks
deriving DecidableEq

namespace Fault

/-- The system's number. -/
def code : Fault → Nat
  | notFound => 2
  | inputOutput => 5
  | alreadyExists => 17
  | notADirectory => 20
  | isADirectory => 21
  | nameTooLong => 36
  | tooManyLinks => 40

/-- The name of the class of faults. -/
def kind : Fault → String
  | notFound => "NotFound"
  | inputOutput => "InputOutputError"
  | alreadyExists => "AlreadyExists"
  | notADirectory => "NotADirectory"
  | isADirectory => "IsADirectory"
  | nameTooLong => "InvalidFilename"
  | tooManyLinks => "FilesystemLoop"

/-- The system's wording. -/
def wording : Fault → String
  | notFound => "No such file or directory"
  | inputOutput => "Input/output error"
  | alreadyExists => "File exists"
  | notADirectory => "Not a directory"
  | isADirectory => "Is a directory"
  | nameTooLong => "File name too long"
  | tooManyLinks => "Too many levels of symbolic links"

/-- The fault in a sentence. -/
def message (f : Fault) : String :=
  f.wording ++ " (os error " ++ toString f.code ++ ")"

/-- The fault with all that is known of it. -/
def details (f : Fault) : String :=
  "Os \x7b code: " ++ toString f.code ++ ", kind: " ++ f.kind ++ ", message: \"" ++ f.wording ++
    "\" \x7d"

end Fault

end HeaderMeta.Files
