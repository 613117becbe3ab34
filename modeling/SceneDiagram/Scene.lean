/-!
# Scenes

A scene is a root node and its descendants in the order of the file. A node may name a type, the
path of its parent and a script; a node without a parent is a root.
-/

namespace SceneDiagram.Scene

/-- A node of a scene. -/
structure Node where
  name : String
  typeName : Option String
  parent : Option String
  script : Option String
  /-- The line of the node's header in the scene file. -/
  line : Nat
deriving Repr, DecidableEq

/-- Whether a node is the root of a scene. -/
def Node.isRoot (n : Node) : Bool := n.parent.isNone

/-- A scene file: its path, its root and all other nodes. -/
structure Tree where
  path : String
  root : Node
  nodes : List Node
deriving Repr, DecidableEq

namespace Tree

/-- The script of a scene is the script of its root. -/
def script (t : Tree) : Option String := t.root.script

/-- The first descendant of a type. -/
def firstOfType? (t : Tree) (typeName : String) : Option Node :=
  t.nodes.find? (·.typeName == some typeName)

end Tree

end SceneDiagram.Scene
