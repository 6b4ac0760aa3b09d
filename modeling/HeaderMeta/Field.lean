import HeaderMeta.Field.Written

/-!
# Fields of a struct

`Field.ofBody` lists the fields of a struct's body, leftmost first and none inside another. What is
no field is passed over, character by character.
-/

namespace HeaderMeta

/-- A field: its name, the text of its type, and whether it carries the marker. -/
structure Field where
  name : String
  type : String
  marked : Bool
deriving DecidableEq

namespace Field

/-- A written field without its layout. -/
def ofWritten (w : Written) : Field :=
  ⟨String.ofList w.name, String.ofList w.type, w.marked⟩

/-- The fields of a body. -/
def ofBody (body : String) : List Field :=
  (Written.reader.scan body.toList).map ofWritten

end Field

end HeaderMeta
