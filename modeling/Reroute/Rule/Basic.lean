import Reroute.Digest.Sha1
import Reroute.Json.Value
import Reroute.Text.Quoted

/-!
# Rules

A rule names a literal text and the text to write over every occurrence of it.  Rules
carry documentation, examples that have to contain the pattern and counterexamples that
must not, and keywords by which chunks without any occurrence are told apart cheaply.

The structural identifier is the digest of pattern and replacement alone: rules that
share it edit every chunk alike.
-/

namespace Reroute

/-- A literal replacement rule. -/
structure Rule where
  id : Bytes
  name : Bytes
  pattern : Bytes
  replacement : Bytes
  structuralId : Bytes
  description : Bytes
  examples : List Bytes
  negativeExamples : List Bytes
  references : List Bytes
  keywords : List Bytes
  deriving DecidableEq, Repr, Inhabited

namespace Rule

/-- The digest of pattern and replacement, in hexadecimal. -/
def computeStructuralId (rule : Rule) : Bytes :=
  (sha1 (rule.pattern ++ 0 :: rule.replacement)).hex

/-- Why a rule is not usable. -/
inductive Error where
  | missing
  | noId
  | noName
  | noPattern
  | noReplacement (id : Bytes)
  | spansLines (id : Bytes)
  | noEffect (id : Bytes)
  | emptyKeyword (id : Bytes)
  | exampleWithout (id : Bytes) (text : Bytes)
  | counterexampleWith (id : Bytes) (text : Bytes)
  | structuralId (id : Bytes) (found expected : Bytes)
  deriving DecidableEq, Repr

def Error.message : Error → Bytes
  | .missing => utf8 "rule is nil"
  | .noId => utf8 "rule ID is required"
  | .noName => utf8 "rule name is required"
  | .noPattern => utf8 "rule pattern is required"
  | .noReplacement id => utf8 "rule " ++ id ++ utf8 " replacement is required"
  | .spansLines id => utf8 "rule " ++ id ++ utf8 " pattern must not span lines"
  | .noEffect id => utf8 "rule " ++ id ++ utf8 " replacement is identical to its pattern"
  | .emptyKeyword id => utf8 "rule " ++ id ++ utf8 " has an empty keyword"
  | .exampleWithout id text =>
      utf8 "rule " ++ id ++ utf8 " example " ++ Quoted.text text
        ++ utf8 " does not contain the pattern"
  | .counterexampleWith id text =>
      utf8 "rule " ++ id ++ utf8 " negative example " ++ Quoted.text text
        ++ utf8 " contains the pattern"
  | .structuralId id found expected =>
      utf8 "rule " ++ id ++ utf8 " has inconsistent StructuralID: got " ++ found
        ++ utf8 ", expected " ++ expected

/-- Check a rule; the first fault found, in this order, is the one reported. -/
def validate (rule : Rule) : Except Error Unit :=
  if rule.id.isEmpty then .error .noId
  else if rule.name.isEmpty then .error .noName
  else if rule.pattern.isEmpty then .error .noPattern
  else if rule.replacement.isEmpty then .error (.noReplacement rule.id)
  else if rule.pattern.any (fun byte => byte == 13 || byte == 10) then
    .error (.spansLines rule.id)
  else if rule.pattern == rule.replacement then .error (.noEffect rule.id)
  else if rule.keywords.any List.isEmpty then .error (.emptyKeyword rule.id)
  else
    match rule.examples.find? fun text => !Bytes.contains rule.pattern text with
    | some text => .error (.exampleWithout rule.id text)
    | none =>
        match rule.negativeExamples.find? (Bytes.contains rule.pattern) with
        | some text => .error (.counterexampleWith rule.id text)
        | none =>
            let expected := rule.computeStructuralId
            if rule.structuralId.isEmpty || rule.structuralId == expected then .ok ()
            else .error (.structuralId rule.id rule.structuralId expected)

/-- Check a rule that may be absent. -/
def validateOptional : Option Rule → Except Error Unit
  | none => .error .missing
  | some rule => rule.validate

/-- The rule with its structural identifier filled in where it lacks one. -/
def complete (rule : Rule) : Rule :=
  if rule.structuralId.isEmpty then { rule with structuralId := rule.computeStructuralId }
  else rule

/-- A member for a text, left out when empty. -/
def textMember (name : String) (text : Bytes) : List (Bytes × Json.Value) :=
  if text.isEmpty then [] else [(utf8 name, .string text)]

/-- A member for a list of texts, left out when empty. -/
def listMember (name : String) (texts : List Bytes) : List (Bytes × Json.Value) :=
  if texts.isEmpty then [] else [(utf8 name, .array (texts.map .string))]

def value (rule : Rule) : Json.Value :=
  .object
    ([(utf8 "id", .string rule.id), (utf8 "name", .string rule.name),
      (utf8 "pattern", .string rule.pattern),
      (utf8 "replacement", .string rule.replacement)]
      ++ textMember "structural_id" rule.structuralId
      ++ textMember "description" rule.description
      ++ listMember "examples" rule.examples
      ++ listMember "negative_examples" rule.negativeExamples
      ++ listMember "references" rule.references
      ++ listMember "keywords" rule.keywords)

end Rule

end Reroute
