import Reroute.Ignore.Expression
import Reroute.Text.Category
import Reroute.Text.Script

/-!
# Classes named by a property

A class of characters may be named by a general category, by a group of categories or by
a script.  Case does not matter in names, and neither do spaces, underscores and hyphens.
-/

namespace Reroute.Ignore.Property

/-- A name without case and separators. -/
def canonical (name : List Char) : List Char :=
  (name.filter fun character => ['_', '-', ' '].all (· != character)).map Char.toLower

/-- The longer names of categories and groups, with the short ones. -/
def aliases : List (String × String) :=
  [("Other", "C"), ("Control", "Cc"), ("cntrl", "Cc"), ("Format", "Cf"),
    ("Unassigned", "Cn"), ("Private_Use", "Co"), ("Surrogate", "Cs"), ("Letter", "L"),
    ("Cased_Letter", "LC"), ("Lowercase_Letter", "Ll"), ("Modifier_Letter", "Lm"),
    ("Other_Letter", "Lo"), ("Titlecase_Letter", "Lt"), ("Uppercase_Letter", "Lu"),
    ("Mark", "M"), ("Combining_Mark", "M"), ("Spacing_Mark", "Mc"),
    ("Enclosing_Mark", "Me"), ("Nonspacing_Mark", "Mn"), ("Number", "N"),
    ("Decimal_Number", "Nd"), ("digit", "Nd"), ("Letter_Number", "Nl"),
    ("Other_Number", "No"), ("Punctuation", "P"), ("punct", "P"),
    ("Connector_Punctuation", "Pc"), ("Dash_Punctuation", "Pd"),
    ("Close_Punctuation", "Pe"), ("Final_Punctuation", "Pf"),
    ("Initial_Punctuation", "Pi"), ("Other_Punctuation", "Po"),
    ("Open_Punctuation", "Ps"), ("Symbol", "S"), ("Currency_Symbol", "Sc"),
    ("Modifier_Symbol", "Sk"), ("Math_Symbol", "Sm"), ("Other_Symbol", "So"),
    ("Separator", "Z"), ("Line_Separator", "Zl"), ("Paragraph_Separator", "Zp"),
    ("Space_Separator", "Zs")]

/-- The characters of the categories whose name satisfies a test. -/
def categories (test : String → Bool) : List (Nat × Nat) :=
  (Text.categoryTable.filter fun entry => test entry.1).flatMap fun entry =>
    entry.2.flatMap Text.readLine

/-- The characters of a group of categories.  Unassigned codes belong to the group of
controls, so that group is what lies outside of the others. -/
def group? (letter : Char) : Option CodeRanges :=
  if letter == 'c' then some ⟨categories fun name => !name.startsWith "C", true⟩
  else if ['l', 'm', 'n', 'p', 's', 'z'].contains letter then
    some ⟨categories fun name => (canonical name.toList).head? == some letter, false⟩
  else none

/-- The characters of a category or a group of them. -/
def category? (name : List Char) : Option CodeRanges :=
  match name with
  | ['l', 'c'] => some ⟨categories fun name => ["Lu", "Ll", "Lt"].contains name, false⟩
  | ['c', 'n'] => some ⟨categories fun _ => true, true⟩
  | [letter] => group? letter
  | _ =>
      (Text.categoryTable.find? fun known => canonical known.toList == name).map
        fun ranges => ⟨ranges, false⟩

/-- The characters that a canonical name stands for. -/
def ofCanonical? (name : List Char) : Option CodeRanges :=
  match String.ofList name with
  | "any" => some ⟨[(0, 0x10FFFF)], false⟩
  | "assigned" => some ⟨categories fun _ => true, false⟩
  | "ascii" => some ⟨[(0, 0x7F)], false⟩
  | _ =>
      match category? name with
      | some codes => some codes
      | none =>
          match Text.scriptTable.find? fun known => canonical known.toList == name with
          | some ranges => some ⟨ranges, false⟩
          | none =>
              (aliases.find? fun entry => canonical entry.1.toList == name).bind fun entry =>
                category? (canonical entry.2.toList)

/-- The characters that a name stands for; a caret in front means the others. -/
def ofName? (negated : Bool) : List Char → Option CodeRanges
  | '^' :: name =>
      (ofCanonical? (canonical name)).map fun codes =>
        { codes with outside := codes.outside != !negated }
  | name =>
      (ofCanonical? (canonical name)).map fun codes =>
        { codes with outside := codes.outside != negated }

/-- Read a class from behind its `p` or `P`: a name of one character, or one in braces. -/
def read (negated : Bool) : List Char → Option (CodeRanges × List Char)
  | [] => none
  | '{' :: rest =>
      let name := rest.takeWhile (· != '}')
      match rest.drop name.length with
      | [] => none
      | _ :: after => (ofName? negated name).map fun codes => (codes, after)
  | character :: rest => (ofName? negated [character]).map fun codes => (codes, rest)

end Reroute.Ignore.Property
