import Mathlib.Data.List.Basic

/-!
# XML trees

What pugixml makes of a document, as far as the parser of configurations looks at it. A node that is
empty is a missing one.
-/

namespace DshLmc

/-- `pugi::xml_node` of an element. Its data are the text of its first child that is one. -/
inductive XmlNode where
  | element (name : String) (attributes : List (String × List Char)) (data : Option (List Char))
      (children : List XmlNode)

namespace XmlNode

def name : XmlNode → String
  | element name _ _ _ => name

def data : XmlNode → Option (List Char)
  | element _ _ data _ => data

/-- `text().as_string()`. -/
def text (node : XmlNode) : List Char := node.data.getD []

def children : XmlNode → List XmlNode
  | element _ _ _ children => children

/-- `attribute(name).value()`, of an attribute that the element has. -/
def attributeValue : XmlNode → String → Option (List Char)
  | element _ attributes _ _, name => attributes.lookup name

/-- `child(name)`: the first one of the name. -/
def child (node : XmlNode) (name : String) : Option XmlNode := node.children.find? (·.name = name)

/-- What a loop over `child(name)` and `next_sibling(name)` goes through. -/
def childrenOf (node : XmlNode) (name : String) : List XmlNode :=
  node.children.filter (·.name = name)

def leaf (name : String) (text : List Char) : XmlNode := element name [] (some text) []

end XmlNode

end DshLmc
