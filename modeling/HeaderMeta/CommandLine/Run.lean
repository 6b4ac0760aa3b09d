import HeaderMeta.CommandLine.Help

/-!
# Runs

A run reads the headers of a project, gathers their structs in a catalog, prints the catalog in the
chosen format and writes the result, after making the directories above it that are missing. Nothing
is written before all headers are read. `run` is the whole command: it takes the disk, the
environment and the arguments, and tells what is printed, the exit code and what became of the disk.
-/

namespace HeaderMeta.CommandLine

open Files

/-- What a command leaves behind. -/
structure Outcome where
  exit : Nat
  stdout : String
  stderr : String
  disk : Disk

/-- What is printed before a project is read. -/
def startLine (root extension : String) : String :=
  "Scanning " ++ Text.quoted root ++ " for *." ++ extension ++ " sources...\n"

/-- What is printed after the result is written. -/
def endLine (format : Format) (c : Catalog) (files : Nat) (output : String) : String :=
  "Wrote " ++ format.name ++ " metadata for " ++ toString c.size ++ " structs (" ++
    toString c.markedCount ++ " fields, " ++ toString files ++ " files) to " ++
    Text.quoted output ++ ".\n"

/-- Makes the directories above a file that are missing. -/
def makeRoom (d : Disk) (output : String) : Disk × Except Fault Unit :=
  match Path.parent? output with
  | none => (d, .ok ())
  | some above =>
    if above = "" ∨ d.exists? above then (d, .ok ()) else d.makeDirectories above

/-- Writes the result, and the directories that it needs. -/
def store (d : Disk) (output text : String) : Disk × Except Fault Unit :=
  match makeRoom d output with
  | (d, .error e) => (d, .error e)
  | (d, .ok ()) =>
    match d.writeFile output (Text.Utf8.encode text.toList) with
    | .ok d => (d, .ok ())
    | .error e => (d, .error e)

/-- A run that ends with a failure. -/
def failed (d : Disk) (stdout : String) (f : Failure) : Outcome :=
  ⟨1, stdout, "Error: " ++ f.details ++ "\n", d⟩

/-- Generates a file. -/
def generate (d : Disk) (root output : String) (format : Format) (extension : String)
    (ns : Option String) : Outcome :=
  let opening := startLine root extension
  match Header.collect d root extension with
  | .error f => failed d opening f
  | .ok headers =>
    let catalog := Catalog.ofTexts (headers.map Header.text)
    match store d output (format.render ns catalog) with
    | (d, .error e) => failed d opening (.unwritten e)
    | (d, .ok ()) => ⟨0, opening ++ endLine format catalog headers.length output, "", d⟩

/-- The exit code of a refused invocation. -/
def refusedExit : Nat := 2

/-- The environment variable that asks for control sequences in what is printed. -/
def colorVariable : String :=
  "CLICOLOR_FORCE"

/-- The environment variable that asks for none. -/
def noColorVariable : String :=
  "NO_COLOR"

/-- Whether a variable has a value, whatever it is. An empty one counts as none. -/
def isGiven (env : List (String × String)) (name : String) : Bool :=
  (env.lookup name).any (· ≠ "")

/-- Whether control sequences are printed. What is printed need not go to a terminal, so they are
left out if nothing asks for them. -/
def wantsColor (env : List (String × String)) : Bool :=
  isGiven env colorVariable && !isGiven env noColorVariable

/-- The help that is asked for. -/
def help (env : Values) (full color : Bool) : String :=
  let text := if full then fullHelp env else shortHelp env
  if color then text else Text.Terminal.plain text

/-- Does what is asked for. -/
def perform (d : Disk) (env : Values) (color : Bool) : Request → Outcome
  | .help full => ⟨0, help env full color, "", d⟩
  | .version => ⟨0, versionText, "", d⟩
  | .usage => ⟨0, usageText, "", d⟩
  | .generate root output format extension ns => generate d root output format extension ns

/-- The command. -/
def run (d : Disk) (env : List (String × String)) (args : List String) : Outcome :=
  let values := Values.ofEnvironment env
  match Invocation.empty.parse values args with
  | none => ⟨refusedExit, "", "error: invalid arguments; try --help\n", d⟩
  | some request => perform d values (wantsColor env) request

end HeaderMeta.CommandLine
