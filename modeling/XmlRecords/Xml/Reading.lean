import XmlRecords.Xml.Expansion
import XmlRecords.Xml.Prolog

/-! # Reading documents -/

namespace XmlRecords

/-- The document that an XML text describes, if it is one. -/
def Document.parse? (source : String) : Option Document := do
  let written ← Xml.written? source.toList
  let chars := source.toList.toArray
  let resolver := Xml.Resolver.outside chars written.entities
  let assembly ← Xml.addTokens chars resolver written.tokens .empty
  return ⟨← assembly.finish?, source⟩

end XmlRecords
