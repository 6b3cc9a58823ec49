import XmlRecords.Text.Quoted
import XmlRecords.Text.Numeral

/-! # Why an XPath fails

The causes for which an expression is not read or not evaluated, and the wording of each.
-/

namespace XmlRecords

namespace XPath

/-- A cause for the failure of an expression. -/
inductive Error where
  /-- An expression was read, but text is left behind it. -/
  | trailing (source : String) (rest : List Char)
  /-- No expression can be read; what is left where a name was looked for last. -/
  | unreadable (source : String) (rest : List Char)
  | unknownFunction (name : String)
  /-- A function is called with a number of arguments it does not take. -/
  | arity (function : String) (expected : String) (found : Nat)
  /-- An argument that has to be a node-set is something else. -/
  | argumentNotNodes (function : String) (argument : String)
  /-- An operand of a union is not a node-set. -/
  | unionNotNodes (left right : String)
  /-- An expression that has to select nodes has another value. -/
  | resultNotNodes (value : String)
deriving DecidableEq

/-- The wording of a cause. -/
def Error.message : Error → String
  | trailing source rest =>
      "XPath parse error in '" ++ source ++ "': unexpected trailing input '" ++
        String.ofList rest ++ "'"
  | unreadable source rest =>
      "XPath parse error in '" ++ source ++ "': Parsing Error: Error \x7b input: " ++
        Text.quoted rest ++ ", code: TakeWhile1 \x7d"
  | unknownFunction name => "Unknown XPath function '" ++ name ++ "'"
  | arity function expected found =>
      "Function '" ++ function ++ "' expects " ++ expected ++ " argument(s), got " ++
        Numeral.text found
  | argumentNotNodes function argument =>
      "Type error: " ++ function ++ "() requires a node-set, got " ++ argument
  | unionNotNodes left right =>
      "Type error: '|' requires node-sets on both sides, got '" ++ left ++ "' and '" ++ right ++ "'"
  | resultNotNodes value =>
      "Type error: expression does not select nodes, it evaluates to '" ++ value ++ "'"

end XPath

end XmlRecords
