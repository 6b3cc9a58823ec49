import XmlRecords.Document.Basic

/-! # Addresses in a document

An item is found by the way down to it from the root: at each step a child or an attribute, by its
index. Addresses in lexicographic order, attributes before children, are in document order: an item
comes before its attributes, these come before its children, and a child comes with all below it
before the next child.
-/

namespace XmlRecords

/-- One step down. -/
inductive Place where
  | attr (index : Nat)
  | child (index : Nat)
deriving DecidableEq

namespace Place

/-- The place comes before another one in the same element. -/
def precedes : Place → Place → Bool
  | attr left, attr right => decide (left < right)
  | attr _, child _ => true
  | child _, attr _ => false
  | child left, child right => decide (left < right)

end Place

/-- The steps from the root down to an item; the root has no step. -/
abbrev Address :=
  List Place

namespace Address

/-- The address comes before another one in document order. -/
def precedes : Address → Address → Bool
  | [], [] => false
  | [], _ :: _ => true
  | _ :: _, [] => false
  | left :: lefts, right :: rights =>
      if left = right then precedes lefts rights else left.precedes right

/-- Puts an address into a list in document order; one that is there already is not put in a second
time. -/
def insert (address : Address) : List Address → List Address
  | [] => [address]
  | first :: rest =>
      if address.precedes first then
        address :: first :: rest
      else if address = first then
        first :: rest
      else
        first :: insert address rest

/-- The addresses of a list in document order, each once. -/
def inOrder (addresses : List Address) : List Address :=
  addresses.foldr insert []

end Address

namespace Item

/-- The item one step down. -/
def at? (item : Item) : Place → Option Item
  | .attr index => item.attributes[index]?.map Item.attr
  | .child index => item.children[index]?.map Item.node

/-- The item at the end of a way down. -/
def descend? : Address → Item → Option Item
  | [], item => some item
  | place :: places, item => (item.at? place).bind (descend? places)

end Item

namespace Document

/-- The item at an address. -/
def itemAt? (document : Document) (address : Address) : Option Item :=
  Item.descend? address (.root document)

/-- The kind of the item at an address. -/
def kindAt? (document : Document) (address : Address) : Option Kind :=
  (document.itemAt? address).map Item.kind

/-- The name of the item at an address. -/
def nameAt? (document : Document) (address : Address) : Option String :=
  (document.itemAt? address).bind Item.name?

/-- The text of the item at an address. -/
def textAt (document : Document) (address : Address) : String :=
  ((document.itemAt? address).map Item.stringValue).getD ""

/-- The markup of the item at an address. -/
def markupAt (document : Document) (address : Address) : String :=
  ((document.itemAt? address).map Item.markup).getD ""

/-- The addresses of the children of an item. -/
def childrenOf (document : Document) (address : Address) : List Address :=
  let count := ((document.itemAt? address).map fun item => item.children.length).getD 0
  (List.range count).map fun index => address ++ [.child index]

/-- The addresses of the attributes of an item. -/
def attributesOf (document : Document) (address : Address) : List Address :=
  let count := ((document.itemAt? address).map fun item => item.attributes.length).getD 0
  (List.range count).map fun index => address ++ [.attr index]

/-- How many nodes there are below an item, attributes apart. -/
def countBelow (document : Document) (address : Address) : Nat :=
  ((document.itemAt? address).map fun item => Node.sizeOfAll item.children).getD 0

end Document

end XmlRecords
