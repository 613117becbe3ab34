import SceneDiagram.Value

/-!
# Sections

A scene source is a list of sections. A section has a header in brackets, with a tag and
attributes, and a body of properties. Keys may repeat; a look-up gives the first.
-/

namespace SceneDiagram

open Text

/-- A bare word and where it stands. -/
structure PlacedWord where
  text : String
  span : Span
deriving Repr, DecidableEq

/-- A key with its value, in the header of a section or in its body. -/
structure Property where
  key : PlacedWord
  value : Value
deriving Repr

/-- The value of the first property with a given key. -/
def Property.lookup? (properties : List Property) (key : String) : Option Value :=
  (properties.find? (·.key.text == key)).map (·.value)

/-- A section of a scene source. -/
structure Section where
  tag : PlacedWord
  attributes : List Property
  properties : List Property
  /-- The span of the header with its brackets. -/
  headerSpan : Span
deriving Repr

namespace Section

/-- The value of the first header attribute with a given key. -/
def attribute? (s : Section) (key : String) : Option Value :=
  Property.lookup? s.attributes key

/-- The value of the first body property with a given key. -/
def property? (s : Section) (key : String) : Option Value :=
  Property.lookup? s.properties key

/-- A header attribute that is a string. -/
def stringAttribute? (s : Section) (key : String) : Option String :=
  (s.attribute? key).bind (·.asString?)

end Section

end SceneDiagram
