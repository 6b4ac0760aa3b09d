import HeaderMeta.Description

/-!
# Catalogs

A `Catalog` gathers the descriptions of many headers, in the order of the headers and, within one
header, of the text. It is what the printers of `Registration` and `Manifest` take.
-/

namespace HeaderMeta

/-- Descriptions of structs in order. -/
structure Catalog where
  descriptions : List Description

namespace Catalog

/-- The catalog of nothing. -/
def empty : Catalog :=
  ⟨[]⟩

/-- Puts descriptions behind those that are there. -/
def append (c : Catalog) (ds : List Description) : Catalog :=
  ⟨c.descriptions ++ ds⟩

/-- Puts one description at the end. -/
def push (c : Catalog) (d : Description) : Catalog :=
  c.append [d]

/-- Takes in the structs of a header. -/
def addText (c : Catalog) (text : String) : Catalog :=
  c.append (Description.ofText text)

/-- The catalog of a list of headers. -/
def ofTexts (texts : List String) : Catalog :=
  texts.foldl addText empty

/-- The number of descriptions. -/
def size (c : Catalog) : Nat :=
  c.descriptions.length

/-- The number of marked fields, repeats counted. -/
def markedCount (c : Catalog) : Nat :=
  (c.descriptions.flatMap Description.marked).length

/-- The descriptions of the structs of a name. -/
def find (c : Catalog) (name : String) : List Description :=
  c.descriptions.filter fun d => d.name == name

/-- The names in order. -/
def names (c : Catalog) : List String :=
  c.descriptions.map Description.name

theorem descriptions_ofTexts (texts : List String) :
    (ofTexts texts).descriptions = texts.flatMap Description.ofText := by
  suffices h : ∀ c : Catalog,
      (texts.foldl addText c).descriptions = c.descriptions ++ texts.flatMap Description.ofText by
    simpa [ofTexts, empty] using h empty
  induction texts with
  | nil => simp
  | cons t ts ih => intro c; simp [ih, addText, append]

end Catalog

end HeaderMeta
