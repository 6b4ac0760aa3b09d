import HeaderMeta.Catalog

/-!
# Manifests as text

A manifest is a catalog as a JSON list with one object for every description. A level of nesting is
set in by two spaces, and a list or object without members is written as its two brackets.
-/

namespace HeaderMeta.Manifest

/-- The name under which the format is chosen. -/
def formatName : String :=
  "json"

/-- A character as it stands in a string: quotes, backslashes and controls are escaped. -/
def escape (c : Char) : List Char :=
  if c = '"' then ['\\', '"']
  else if c = '\\' then ['\\', '\\']
  else if c = '\n' then ['\\', 'n']
  else if c = '\r' then ['\\', 'r']
  else if c = '\t' then ['\\', 't']
  else if c.toNat = 0x8 then ['\\', 'b']
  else if c.toNat = 0xc then ['\\', 'f']
  else if c.toNat < 0x20 then
    ['\\', 'u', '0', '0', (c.toNat / 16).digitChar, (c.toNat % 16).digitChar]
  else [c]

/-- A string in quotes. -/
def quote (s : String) : List Char :=
  '"' :: s.toList.flatMap escape ++ ['"']

/-- A line end and the indentation of the next line. -/
def newline (depth : Nat) : List Char :=
  '\n' :: List.replicate (2 * depth) ' '

/-- A list or object at some depth, one item to a line. -/
def block (opening closing : Char) (depth : Nat) : List (List Char) → List Char
  | [] => [opening, closing]
  | i :: is =>
    opening :: (newline (depth + 1) ++ i ++
      is.flatMap (fun j => ',' :: newline (depth + 1) ++ j) ++ newline depth ++ [closing])

/-- A member of an object. -/
def member (key : String) (value : List Char) : List Char :=
  quote key ++ ':' :: ' ' :: value

/-- A description, which stands at depth one. -/
def printDescription (d : Description) : List Char :=
  block '\x7b' '\x7d' 1
    [member "name" (quote d.name),
     member "serializedFields" (block '[' ']' 2 (d.marked.map quote)),
     member "fieldTypes" (block '\x7b' '\x7d' 2 (d.types.entries.map fun e => member e.1 (quote e.2)))]

/-- The text of a manifest. -/
def render (c : Catalog) : String :=
  String.ofList (block '[' ']' 0 (c.descriptions.map printDescription) ++ ['\n'])

end HeaderMeta.Manifest
