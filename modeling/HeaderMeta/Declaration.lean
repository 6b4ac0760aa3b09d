import HeaderMeta.Declaration.Written

/-!
# Structs of a header

`Declaration.ofText` lists the structs of a text, leftmost first and none inside another. What is no
struct is passed over, character by character.
-/

namespace HeaderMeta

/-- A struct of a header: its name and the text of its body. -/
structure Declaration where
  name : String
  body : String
deriving DecidableEq

namespace Declaration

/-- A written struct without its layout. -/
def ofWritten (w : Written) : Declaration :=
  ⟨String.ofList w.name, String.ofList w.body⟩

/-- The structs of a text. -/
def ofText (text : String) : List Declaration :=
  (Written.reader.scan text.toList).map ofWritten

end Declaration

end HeaderMeta
