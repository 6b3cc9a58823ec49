import XmlRecords.XPath.Error
import XmlRecords.XPath.Value

/-! # The function library

The functions that expressions can call, the numbers of arguments they take, and what they answer.
Some functions look at the focus: the context node, its position among the nodes looked at together
with it, and their number.
-/

namespace XmlRecords

namespace XPath

/-- What an expression is evaluated at. -/
structure Focus where
  node : Address
  /-- Where absolute paths start. -/
  root : Address
  /-- The position of the node, counted from one. -/
  position : Nat
  size : Nat

/-- A function. -/
inductive Function where
  | position
  | last
  | count
  | name
  | localName
  | string
  | concat
  | contains
  | startsWith
  | stringLength
  | normalizeSpace
  | number
  | boolean
  | not
  | true
  | false
deriving DecidableEq

/-- How many arguments a function takes. -/
inductive Arity where
  | exactly (count : Nat)
  | optional
  | twoOrMore

namespace Arity

/-- The number of arguments is admitted. -/
def admits : Arity → Nat → Bool
  | exactly count, found => found = count
  | optional, found => found ≤ 1
  | twoOrMore, found => 2 ≤ found

/-- An arity as messages name it. -/
def text : Arity → String
  | exactly count => Numeral.text count
  | optional => "0 or 1"
  | twoOrMore => "2 or more"

end Arity

namespace Function

/-- The function of a name. -/
def ofName? : String → Option Function
  | "position" => some position
  | "last" => some last
  | "count" => some count
  | "name" => some name
  | "local-name" => some localName
  | "string" => some string
  | "concat" => some concat
  | "contains" => some contains
  | "starts-with" => some startsWith
  | "string-length" => some stringLength
  | "normalize-space" => some normalizeSpace
  | "number" => some number
  | "boolean" => some boolean
  | "not" => some not
  | "true" => some true
  | "false" => some false
  | _ => none

/-- The arguments that a function takes. -/
def arity : Function → Arity
  | position => .exactly 0
  | last => .exactly 0
  | count => .exactly 1
  | name => .optional
  | localName => .optional
  | string => .optional
  | concat => .twoOrMore
  | contains => .exactly 2
  | startsWith => .exactly 2
  | stringLength => .optional
  | normalizeSpace => .optional
  | number => .optional
  | boolean => .exactly 1
  | not => .exactly 1
  | true => .exactly 0
  | false => .exactly 0

/-- The only argument, or the context node when there is none. -/
def argumentOrNode (focus : Focus) : List Value → Value
  | [] => .nodes [focus.node]
  | argument :: _ => argument

/-- The text of an argument. -/
def textArgument (document : Document) (arguments : List Value) (index : Nat) : List Char :=
  ((arguments[index]?.map (Value.toText document)).getD "").toList

/-- A text with its words separated by one space each. -/
def normalizedSpace (text : List Char) : List Char :=
  [' '].intercalate (Text.words text)

/-- A text occurs inside another one. -/
def occursIn (part : List Char) : List Char → Bool
  | [] => part.isEmpty
  | char :: text => part.isPrefixOf (char :: text) || occursIn part text

/-- The number of nodes of an argument. -/
def countNodes : Value → Except Error Value
  | .nodes nodes => .ok (.number (Binary64.ofNat nodes.length))
  | argument => .error (.argumentNotNodes "count" argument.shown)

/-- The name of the first node of an argument, empty when there is no node or it has no name. -/
def nameOfFirst (document : Document) (function : String) : Value → Except Error Value
  | .nodes [] => .ok (.string "")
  | .nodes (node :: _) => .ok (.string ((document.nameAt? node).getD ""))
  | argument => .error (.argumentNotNodes function argument.shown)

/-- The answer of a function to as many arguments as it takes. -/
def apply (function : Function) (document : Document) (focus : Focus) (arguments : List Value) :
    Except Error Value :=
  let only := argumentOrNode focus arguments
  match function with
  | position => .ok (.number (Binary64.ofNat focus.position))
  | last => .ok (.number (Binary64.ofNat focus.size))
  | count => countNodes only
  | name => nameOfFirst document "name" only
  | localName => nameOfFirst document "local-name" only
  | string => .ok (.string (only.toText document))
  | concat => .ok (.string (String.join (arguments.map (Value.toText document))))
  | contains =>
      .ok (.boolean (occursIn (textArgument document arguments 1)
        (textArgument document arguments 0)))
  | startsWith =>
      .ok (.boolean ((textArgument document arguments 1).isPrefixOf
        (textArgument document arguments 0)))
  | stringLength => .ok (.number (Binary64.ofNat (only.toText document).toList.length))
  | normalizeSpace =>
      .ok (.string (String.ofList (normalizedSpace (only.toText document).toList)))
  | number => .ok (.number (only.toNumber document))
  | boolean => .ok (.boolean only.toBoolean)
  | not => .ok (.boolean (!only.toBoolean))
  | true => .ok (.boolean Bool.true)
  | false => .ok (.boolean Bool.false)

end Function

/-- The answer of a function of the library, called by its name. -/
def callFunction (name : String) (document : Document) (focus : Focus) (arguments : List Value) :
    Except Error Value :=
  match Function.ofName? name with
  | none => .error (.unknownFunction name)
  | some function =>
      if function.arity.admits arguments.length then
        function.apply document focus arguments
      else
        .error (.arity name function.arity.text arguments.length)

end XPath

end XmlRecords
