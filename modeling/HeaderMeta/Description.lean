import HeaderMeta.Declaration
import HeaderMeta.Field
import HeaderMeta.TypeTable

/-!
# Descriptions of structs

A `Description` tells what is to be registered of one struct: its name, the names of its marked
fields in order, and the type of every field. Two structs of one name give two descriptions.
`Description.ofText` describes the structs of a header that have a marked field; it never fails, as
what is no struct or no field is passed over.
-/

namespace HeaderMeta

/-- What is known of one struct. -/
structure Description where
  name : String
  /-- The names of the marked fields in the order of the text. Repeats are kept. -/
  marked : List String
  /-- The type of every field, marked or not. -/
  types : TypeTable

namespace Description

/-- A struct of which no field is known yet. -/
def named (name : String) : Description :=
  ⟨name, [], .empty⟩

/-- Takes a field into account. The type of a field that was there before is replaced. -/
def addField (d : Description) (f : Field) : Description where
  name := d.name
  marked := if f.marked then d.marked ++ [f.name] else d.marked
  types := d.types.insert f.name f.type

/-- The description that a list of fields gives. -/
def ofFields (name : String) (fields : List Field) : Description :=
  fields.foldl addField (named name)

/-- The description of a struct of a header. -/
def ofDeclaration (d : Declaration) : Description :=
  ofFields d.name (Field.ofBody d.body)

/-- Whether there is a field to register. -/
def hasMarked (d : Description) : Bool :=
  !d.marked.isEmpty

/-- The structs of a header that have a field to register. -/
def ofText (text : String) : List Description :=
  ((Declaration.ofText text).map ofDeclaration).filter hasMarked

/-- The marked fields, each with its type as far as it is known. -/
def markedTypes (d : Description) : List (String × Option String) :=
  d.marked.map fun f => (f, d.types.get? f)

/-- Whether two descriptions say the same: the order of the types does not count. -/
def agrees (d e : Description) : Bool :=
  d.name == e.name && d.marked == e.marked && d.types.agrees e.types

@[ext] theorem ext {d e : Description} (hn : d.name = e.name) (hm : d.marked = e.marked)
    (ht : d.types = e.types) : d = e := by
  cases d; cases e; simp_all

end Description

end HeaderMeta
