/-! # Records

A record gives values to names, in an order of its own: a name keeps the place at which it came in.
-/

namespace XmlRecords

/-- Named values in order. -/
abbrev Record (α : Type) :=
  List (String × α)

namespace Record

/-- The names of a record, in order. -/
def names (record : Record α) : List String :=
  record.map Prod.fst

/-- Gives a value to a name. A name that is there already keeps its place, and a new one comes
last. -/
def insert (name : String) (value : α) : Record α → Record α
  | [] => [(name, value)]
  | (other, old) :: rest =>
      if other = name then (name, value) :: rest else (other, old) :: insert name value rest

/-- Takes a name out; the others keep their order. -/
def remove (name : String) : Record α → Record α
  | [] => []
  | (other, value) :: rest =>
      if other = name then rest else (other, value) :: remove name rest

/-- The value of a name. -/
def get? (name : String) : Record α → Option α
  | [] => none
  | (other, value) :: rest => if other = name then some value else get? name rest

/-- The record has the name. -/
def contains (name : String) (record : Record α) : Bool :=
  (get? name record).isSome

/-- Adds pairs to a record, one after another. -/
def insertAll (record : Record α) : List (String × α) → Record α
  | [] => record
  | (name, value) :: pairs => insertAll (insert name value record) pairs

/-- The record of a list of pairs; of a repeated name the last value counts. -/
def ofList (pairs : List (String × α)) : Record α :=
  insertAll [] pairs

end Record

end XmlRecords
