/-! # Singulars

The English singular of a name. Only the last of the words that underscores join is inflected. There
are words without a plural, words with a plural of their own, rules for endings, and at last the
plain `s` that is dropped.
-/

namespace XmlRecords

namespace Text

/-- Words that are their own plural. -/
def uncountable : List String :=
  ["data", "equipment", "information", "news", "rice", "series", "sheep", "species"]

/-- Plurals that follow no rule, and their singulars. -/
def irregular : List (String × String) :=
  [("people", "person"), ("men", "man"), ("women", "woman"), ("children", "child"),
    ("feet", "foot"), ("teeth", "tooth"), ("geese", "goose"), ("mice", "mouse"),
    ("lice", "louse"), ("movies", "movie"), ("indices", "index"), ("vertices", "vertex")]

/-- Endings of plurals and of their singulars; the first that fits is taken. -/
def endings : List (String × String) :=
  [("quizzes", "quiz"), ("statuses", "status"), ("aliases", "alias"), ("buses", "bus"),
    ("ies", "y"), ("hives", "hive"), ("tives", "tive"), ("lves", "lf"), ("rves", "rf"),
    ("ves", "fe"), ("sses", "ss"), ("xes", "x"), ("ches", "ch"), ("shes", "sh")]

/-- Endings in `s` of words that are no plurals. -/
def keptEndings : List String :=
  ["ss", "us", "is"]

/-- The word ends in an ending. -/
def endsIn (word : List Char) (ending : String) : Bool :=
  ending.toList.isSuffixOf word

/-- The word without an `s` at its end, unless that is the whole word. -/
def withoutFinalS (word : List Char) : List Char :=
  if word.getLast? = some 's' && decide (1 < word.length) then word.dropLast else word

/-- The singular of a word by the rules for endings. Letters count in either case, but a plain `s`
only when it is small. -/
def singularByEnding (word : List Char) : List Char :=
  let small := word.map Char.toLower
  match endings.find? fun (plural, _) => endsIn small plural with
  | some (plural, singular) => word.take (word.length - plural.length) ++ singular.toList
  | none => if keptEndings.any (endsIn small) then word else withoutFinalS word

/-- The singular of one word. -/
def singularWord (word : List Char) : List Char :=
  let small := String.ofList (word.map Char.toLower)
  if uncountable.contains small then
    word
  else
    match irregular.find? fun (plural, _) => plural = small with
    | some (_, singular) => singular.toList
    | none => singularByEnding word

/-- Splits a name behind its last underscore. -/
def splitLastWord (name : List Char) : List Char × List Char :=
  let (last, front) := name.reverse.span fun char => char != '_'
  (front.reverse, last.reverse)

/-- The singular of a name. -/
def singular (name : String) : String :=
  let (front, last) := splitLastWord name.toList
  String.ofList (front ++ singularWord last)

end Text

end XmlRecords
