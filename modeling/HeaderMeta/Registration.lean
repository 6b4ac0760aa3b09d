import HeaderMeta.Catalog
import HeaderMeta.Text.Class

/-!
# Registration headers

A catalog is printed as a C++ header with one function, `RegisterMeta()`, that registers every
marked field with the entt meta system. A struct gives one chain of calls; the type of a field
stands in a comment above the field's call, and the last call of a chain takes the `;`.
-/

namespace HeaderMeta.Registration

open Text

/-- The name under which the format is chosen. -/
def formatName : String :=
  "entt"

/-- One call of a chain, with the comment that goes above it. -/
structure Call where
  comment : Option String
  code : String

/-- The lines of a call that ends with `stop`. -/
def Call.lines (indent stop : String) (c : Call) : List String :=
  (c.comment.toList.map fun t => indent ++ "// " ++ t) ++ [indent ++ c.code ++ stop]

/-- The call that names the struct. -/
def typeCall (name : String) : Call :=
  ⟨none, ".type(\"" ++ name ++ "\"_hs)"⟩

/-- The call that registers a field under its own name. -/
def dataCall (name field : String) (type : Option String) : Call :=
  ⟨some (type.getD "unknown"),
    ".data<&" ++ name ++ "::" ++ field ++ ">(\"" ++ field ++ "\"_hs).custom<std::string>(\"" ++
      field ++ "\")"⟩

/-- The calls that register a struct. -/
def calls (d : Description) : List Call :=
  typeCall d.name :: d.markedTypes.map fun (f, t) => dataCall d.name f t

/-- The lines of a chain: the last call alone is closed. -/
def chainLines (indent : String) : List Call → List String
  | [] => []
  | [c] => c.lines indent ";"
  | c :: cs => c.lines indent "" ++ chainLines indent cs

/-- The lines that register a struct. -/
def structLines (indent : String) (d : Description) : List String :=
  (indent ++ "entt::meta_factory<" ++ d.name ++ ">()") :: chainLines (indent ++ "    ") (calls d)

/-- The lines that every header starts with. -/
def preamble : List String :=
  ["// Generated by prebuild-tool. Do not edit.",
   "#pragma once",
   "",
   "#include <string>",
   "#include <entt/entt.hpp>",
   ""]

/-- The lines of `RegisterMeta()`, set in by `indent`. -/
def functionLines (indent : String) (c : Catalog) : List String :=
  [indent ++ "inline void RegisterMeta()",
   indent ++ "\x7b",
   indent ++ "    using namespace entt::literals;"] ++
  c.descriptions.flatMap (fun d => "" :: structLines (indent ++ "    ") d) ++
  [indent ++ "\x7d"]

/-- The namespace that is meant: one of blanks alone counts as none. -/
def effectiveNamespace (ns : Option String) : Option String :=
  ns.filter fun n => !allBlank n.toList

/-- The lines of a header whose function stands in a namespace, if one is given. -/
def lines (ns : Option String) (c : Catalog) : List String :=
  preamble ++
  match effectiveNamespace ns with
  | none => functionLines "" c
  | some n => ["namespace " ++ n, "\x7b"] ++ functionLines "    " c ++ ["\x7d"]

/-- The text of a header. -/
def render (ns : Option String) (c : Catalog) : String :=
  String.join ((lines ns c).map (· ++ "\n"))

end HeaderMeta.Registration
