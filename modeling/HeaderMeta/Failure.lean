import HeaderMeta.Files.Fault
import HeaderMeta.Text.Quoted

/-!
# Failures

Reading headers and writing the result can fail; recognising structs cannot. A `Failure` is the
cause. It is told in two ways: as a message under one of four headings, and in full, as it is shown
when a run ends with it.
-/

namespace HeaderMeta

open Files

/-- What a message is about. -/
inductive Heading where
  | general
  | system
  | walk
  | json
deriving DecidableEq

namespace Heading

/-- The words before the message. -/
def title : Heading → String
  | general => "General Error: "
  | system => "IO Error: "
  | walk => "Walk Error: "
  | json => "JSON Error: "

/-- A text under a heading. -/
def message (h : Heading) (text : String) : String :=
  h.title ++ text

end Heading

/-- Why a run did not come to its end. -/
inductive Failure where
  /-- There is no directory to start from. -/
  | noDirectory (root : String)
  /-- A header cannot be read. -/
  | unreadable (path : String) (fault : Fault)
  /-- A directory cannot be listed, so many names below the start. -/
  | unlisted (path : String) (depth : Nat) (fault : Fault)
  /-- The result cannot be written. -/
  | unwritten (fault : Fault)
deriving DecidableEq

namespace Failure

/-- What kind of failure it is. -/
def heading : Failure → Heading
  | noDirectory _ | unreadable _ _ => .general
  | unlisted _ _ _ => .walk
  | unwritten _ => .system

/-- What happened, in a sentence. -/
def text : Failure → String
  | noDirectory root => "Source directory not found: " ++ Text.quoted root
  | unreadable path fault => "Failed to read file " ++ Text.quoted path ++ ": " ++ fault.message
  | unlisted path _ fault => "IO error for operation on " ++ path ++ ": " ++ fault.message
  | unwritten fault => fault.message

/-- What happened, under its heading. -/
def message (f : Failure) : String :=
  f.heading.message f.text

/-- The failure with all that is known of it. -/
def details (f : Failure) : String :=
  match f with
  | noDirectory _ | unreadable _ _ => "App(General(" ++ Text.quoted f.text ++ "))"
  | unlisted path depth fault =>
    "App(Walk(Error \x7b depth: " ++ toString depth ++ ", inner: Io \x7b path: Some(" ++
      Text.quoted path ++ "), err: " ++ fault.details ++ " \x7d \x7d))"
  | unwritten fault => "Io(" ++ fault.details ++ ")"

end Failure

end HeaderMeta
