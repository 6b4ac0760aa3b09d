import HeaderMeta.CommandLine.Options
import HeaderMeta.Text.Terminal

/-!
# Help texts

What is printed when help, the version or the usage is asked for. Help shows for each option the
value that its environment variable has at the time. It is written for a terminal, with headings and
the names of options set off.
-/

namespace HeaderMeta.CommandLine

open Text.Terminal (heading strong)

/-- How the values are given, without the command's name. -/
def synopsis : String :=
  "[OPTIONS] [ROOT] [OUTPUT]"

/-- What is printed when a path is missing. -/
def usageText : String :=
  "Usage: prebuild-cli " ++ synopsis ++ "\n"

/-- The version. -/
def versionText : String :=
  "prebuild-cli 0.1.0\n"

/-- What both help texts start with. -/
def helpOpening : String :=
  "Generates reflection metadata for [[Serialize]] struct fields\n\n" ++
    heading "Usage:" ++ " " ++ strong "prebuild-tool" ++ " " ++ synopsis ++ "\n\n"

/-- What a format is. -/
def Format.result : Format → String
  | entt => "C++ header registering entt meta data"
  | json => "JSON manifest"

/-- Sets in all lines of a text but the first. -/
def hang (width : Nat) (s : String) : String :=
  String.ofList (s.toList.flatMap fun c =>
    if c = '\n' then '\n' :: List.replicate width ' ' else [c])

/-- A number of blanks. -/
def blanks (width : Nat) : String :=
  String.ofList (List.replicate width ' ')

/-- How an option is given. -/
structure Label where
  /-- The letter, if one letter is enough. -/
  letter : Option Char
  name : String
  /-- What stands for the value, if there is one. -/
  value : Option String

namespace Label

/-- A label in the list of options, with letter and name set off by `mark`. -/
def text (mark : String → String) (l : Label) : String :=
  "  " ++ (match l.letter with
    | some c => mark ("-" ++ c.toString) ++ ", "
    | none => "    ") ++
  mark ("--" ++ l.name) ++
  (match l.value with
    | some v => " <" ++ v ++ ">"
    | none => "")

/-- A label with names in bold. -/
def styled (l : Label) : String :=
  l.text strong

/-- A label with names in bold, filled up with blanks to a width. -/
def padded (width : Nat) (l : Label) : String :=
  l.styled ++ blanks (width - (l.text id).length)

end Label

/-- The label of help. -/
def helpLabel : Label :=
  ⟨some 'h', "help", none⟩

/-- The label of the version. -/
def versionLabel : Label :=
  ⟨some 'V', "version", none⟩

namespace Setting

/-- The label of an option. -/
def label (o : Setting) : Label where
  letter := none
  name := o.name
  value := match o with
    | format => "FORMAT"
    | extension => "EXTENSION"
    | namespaceName => "NAMESPACE"

/-- What the option is for. -/
def purpose : Setting → String
  | format => "Format of the generated file"
  | extension => "Extension of scanned files, without the dot"
  | namespaceName => "C++ namespace wrapping `RegisterMeta()` (entt format only)"

/-- The value that the option has if nothing sets it. -/
def default? : Setting → Option String
  | format => some Format.entt.name
  | extension => some Header.defaultExtension
  | namespaceName => none

/-- The notes on an option: its variable and its default. -/
def notes (env : Values) (o : Setting) : List String :=
  ("[env: " ++ o.variableName ++ "=" ++ (env o).getD "" ++ "]") ::
    (o.default?.toList.map fun v => "[default: " ++ v ++ "]")

end Setting

/-- The column at which the short help explains an option. -/
def shortColumn : Nat := 31

/-- The column at which the full help explains an option. -/
def fullColumn : Nat := 10

/-- One option in the short help. -/
def shortEntry (env : Values) (o : Setting) : String :=
  let values :=
    if o = .format then
      ["[possible values: " ++ ", ".intercalate (Format.all.map Format.name) ++ "]"]
    else []
  o.label.padded shortColumn ++
    hang shortColumn (" ".intercalate (o.purpose :: o.notes env ++ values)) ++ "\n"

/-- The help on one screen. -/
def shortHelp (env : Values) : String :=
  helpOpening ++
  heading "Arguments:" ++ "\n" ++
  "  [ROOT]    Project directory scanned recursively for header sources\n" ++
  "  [OUTPUT]  Path of the generated file\n\n" ++
  heading "Options:" ++ "\n" ++
  String.join (Setting.all.map (shortEntry env)) ++
  helpLabel.padded shortColumn ++ "Print help (see more with '--help')\n" ++
  versionLabel.padded shortColumn ++ "Print version\n"

/-- The formats in the full help, below what they are for. -/
def formatList : String :=
  "\n\n" ++ blanks fullColumn ++
    hang fullColumn ("\n".intercalate
      ("Possible values:" :: Format.all.map fun f => "- " ++ strong f.name ++ ": " ++ f.result))

/-- One option in the full help. -/
def fullEntry (env : Values) (o : Setting) : String :=
  o.label.styled ++ "\n" ++ blanks fullColumn ++ o.purpose ++
    (if o = .format then formatList else "") ++
    hang fullColumn ("\n\n" ++ "\n".intercalate (o.notes env)) ++ "\n\n"

/-- The help at length. -/
def fullHelp (env : Values) : String :=
  helpOpening ++
  heading "Arguments:" ++ "\n" ++
  "  [ROOT]\n" ++
  "          Project directory scanned recursively for header sources\n\n" ++
  "  [OUTPUT]\n" ++
  "          Path of the generated file\n\n" ++
  heading "Options:" ++ "\n" ++
  String.join (Setting.all.map (fullEntry env)) ++
  helpLabel.styled ++ "\n" ++
  "          Print help (see a summary with '-h')\n\n" ++
  versionLabel.styled ++ "\n" ++
  "          Print version\n"

end HeaderMeta.CommandLine
