import HeaderMeta.Header
import HeaderMeta.Manifest.Printer
import HeaderMeta.Registration

/-!
# Options and arguments

An invocation names the project directory and the file to generate, and may set three options.
`Invocation.parse` reads the arguments from left to right: an argument that is not understood makes
the whole invocation refused, and a request for help or for the version is granted as soon as it is
reached. An option that no argument sets takes the value of its environment variable, or else its
default.
-/

namespace HeaderMeta.CommandLine

/-- The format of the generated file. -/
inductive Format where
  | entt
  | json
deriving DecidableEq

namespace Format

/-- The name under which a format is chosen. -/
def name : Format → String
  | entt => Registration.formatName
  | json => Manifest.formatName

/-- All formats. -/
def all : List Format :=
  [entt, json]

/-- The format of a name. -/
def ofName? (s : String) : Option Format :=
  all.find? (·.name == s)

/-- What is generated for a catalog. -/
def render (ns : Option String) (c : Catalog) : Format → String
  | entt => Registration.render ns c
  | json => Manifest.render c

end Format

/-- The options that take a value. -/
inductive Setting where
  | format
  | extension
  | namespaceName
deriving DecidableEq

namespace Setting

/-- The name of an option. -/
def name : Setting → String
  | format => "format"
  | extension => "extension"
  | namespaceName => "namespace"

/-- The environment variable that stands in for an option. -/
def variableName : Setting → String
  | format => "PREBUILD_FORMAT"
  | extension => "PREBUILD_EXTENSION"
  | namespaceName => "PREBUILD_NAMESPACE"

/-- All options, in the order of the help texts. -/
def all : List Setting :=
  [format, extension, namespaceName]

/-- The option of a name. -/
def ofName? (s : String) : Option Setting :=
  all.find? (·.name == s)

/-- Whether an option takes a value. -/
def accepts (value : String) : Setting → Bool
  | format => (Format.ofName? value).isSome
  | extension | namespaceName => true

end Setting

/-- Values of options: what was set, each with its value. -/
abbrev Values := Setting → Option String

/-- The values of the environment variables that stand in for options. -/
def Values.ofEnvironment (env : List (String × String)) : Values :=
  fun o => env.lookup o.variableName

/-- What arguments give. -/
structure Invocation where
  values : Values
  /-- The paths that were named: the project directory and the file to generate. -/
  paths : List String

/-- What is to be done. -/
inductive Request where
  /-- Print help, in full or in short. -/
  | help (full : Bool)
  /-- Print the version. -/
  | version
  /-- Print the usage line, as a path is missing. -/
  | usage
  /-- Generate a file. -/
  | generate (root output : String) (format : Format) (extension : String)
      (namespaceName : Option String)
deriving DecidableEq

/-- The form of one argument. -/
inductive Argument where
  /-- Two dashes: all that follows are paths. -/
  | dashes
  /-- A long option, with the value behind its equals sign if there is one. -/
  | long (name : String) (value : Option String)
  /-- Options of one letter. -/
  | short (letters : List Char)
  /-- Anything else. -/
  | plain
deriving DecidableEq

/-- A long option without its dashes, cut at the first equals sign. -/
def Argument.ofLong (s : List Char) : Argument :=
  match s.dropWhile (· != '=') with
  | [] => .long (String.ofList s) none
  | _ :: value => .long (String.ofList (s.takeWhile (· != '='))) (some (String.ofList value))

/-- Tells an argument by its dashes. One dash alone is none of the options. -/
def Argument.ofString (s : String) : Argument :=
  match s.toList with
  | ['-', '-'] => .dashes
  | '-' :: '-' :: r => .ofLong r
  | '-' :: c :: r => .short (c :: r)
  | _ => .plain

namespace Invocation

/-- Nothing is given. -/
def empty : Invocation :=
  ⟨fun _ => none, []⟩

/-- Sets an option, once and to a value that it takes. -/
def set? (i : Invocation) (o : Setting) (value : String) : Option Invocation :=
  if (i.values o).isNone && o.accepts value then
    some { i with values := fun o' => if o' = o then some value else i.values o' }
  else none

/-- Takes a path. There are at most two, and none is empty. -/
def addPath? (i : Invocation) (path : String) : Option Invocation :=
  if path ≠ "" ∧ i.paths.length < 2 then some { i with paths := i.paths ++ [path] } else none

/-- Takes paths one after another. -/
def addPaths? (i : Invocation) (paths : List String) : Option Invocation :=
  paths.foldlM addPath? i

/-- The value of an option: from the arguments, or else from the environment. -/
def value (i : Invocation) (env : Values) (o : Setting) : Option String :=
  i.values o <|> env o

/-- What all the arguments together ask for; none if the environment sets what an option does not
take. -/
def request? (i : Invocation) (env : Values) : Option Request := do
  let format ← match i.value env .format with
    | none => some Format.entt
    | some name => Format.ofName? name
  match i.paths with
  | [root, output] =>
    return .generate root output format
      ((i.value env .extension).getD Header.defaultExtension) (i.value env .namespaceName)
  | _ => return .usage

/-- Reads the arguments that are left. None stands for a refusal. -/
def parse (i : Invocation) (env : Values) : List String → Option Request
  | [] => i.request? env
  | a :: rest =>
    match Argument.ofString a with
    | .dashes => i.addPaths? rest >>= fun j => j.request? env
    | .plain => i.addPath? a >>= fun j => j.parse env rest
    | .short letters =>
      match letters.head? with
      | some 'h' => some (.help false)
      | some 'V' => some .version
      | _ => none
    | .long name value =>
      if name = "help" ∧ value = none then some (.help true)
      else if name = "version" ∧ value = none then some .version
      else
        match Setting.ofName? name, value, rest with
        | none, _, _ => none
        | some o, some v, rest => i.set? o v >>= fun j => j.parse env rest
        | some _, none, [] => none
        | some o, none, v :: rest =>
          if Argument.ofString v = .plain then i.set? o v >>= fun j => j.parse env rest
          else none

end Invocation

end HeaderMeta.CommandLine
