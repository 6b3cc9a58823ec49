import XmlRecords.Mapping.Building
import XmlRecords.Value.Encoding

/-! # The command

The command takes two files, a mapping and a document, and prints the record of the document. It
fails when there are not two arguments, when a file is not read, and when there is no record.
-/

namespace XmlRecords

/-- What the command does in the end. -/
structure Outcome where
  status : Nat
  /-- What is printed. -/
  output : String
  /-- What is said about a failure. -/
  complaint : String

namespace Outcome

/-- A failure, which prints nothing. -/
def failure (complaint : String) : Outcome :=
  ⟨1, "", complaint⟩

/-- The record of a document by a mapping. -/
def record (mapping document : String) : Except BindingError (Record Value) :=
  match Mapping.parse? mapping with
  | none => .error .malformedMapping
  | some mapping => do (← mapping.build).bind document

/-- The text of a record, with a line for every field. -/
def recordText (record : Record Value) : String :=
  ((Value.record record).encode Encoding.json).pretty ++ "\n"

/-- What the command does with a mapping and a document. -/
def ofTexts (mapping document : String) : Outcome :=
  match record mapping document with
  | .ok record => ⟨0, recordText record, ""⟩
  | .error cause => failure cause.message

/-- What the command does when the files that its arguments name have these contents; none stands
for a file that is not read. -/
def ofFiles : List (Option String) → Outcome
  | [some mapping, some document] => ofTexts mapping document
  | [_, _] => failure "A file cannot be read."
  | _ => failure "Two arguments are needed: a mapping and a document."

end Outcome

end XmlRecords
