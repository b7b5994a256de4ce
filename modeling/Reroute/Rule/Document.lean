import Reroute.Files.Walk
import Reroute.Rule.Basic
import Reroute.Text.Blank
import Reroute.Yaml.Record

/-!
# Rule documents

A rule document is a YAML mapping whose `rules` are a list of records.  Entries it does
not know are ignored.  A rule that names no keywords gets its pattern as its only one,
and its structural identifier is always computed.
-/

namespace Reroute.Rule

/-- Why no rule could be loaded. -/
inductive LoadError where
  | malformed
  | incomparableKeys
  | noRules
  | severalRules (count : Nat)
  | unreadable (path : Bytes)
  | malformedFile (path : Bytes)
  | noDirectory
  deriving DecidableEq, Repr

def LoadError.message : LoadError → Bytes
  | .malformed => utf8 "failed to parse YAML: <yaml>"
  | .incomparableKeys => utf8 "comparing keys of a mapping: one of them is a collection"
  | .noRules => utf8 "no rules found in YAML"
  | .severalRules count => utf8 "expected single rule, found " ++ Numeral.ofNat count
  | .unreadable path =>
      utf8 "failed to read file " ++ path ++ utf8 ": " ++ FileError.missing.message
  | .malformedFile path => utf8 "failed to parse " ++ path ++ utf8 ": <yaml>"
  | .noDirectory => FileError.missing.message

/-- Complete a rule that was read from a document. -/
def finishLoaded (rule : Rule) : Rule :=
  let rule := { rule with description := Bytes.trim rule.description }
  let rule :=
    if rule.keywords.isEmpty && !rule.pattern.isEmpty then
      { rule with keywords := [rule.pattern] }
    else rule
  { rule with structuralId := rule.computeStructuralId }

def ruleSchema : Yaml.Schema Rule where
  fields :=
    [.of "name" Yaml.Reading.text fun name rule => { rule with name },
      .of "id" Yaml.Reading.text fun id rule => { rule with id },
      .of "pattern" Yaml.Reading.text fun pattern rule => { rule with pattern },
      .of "replacement" Yaml.Reading.text fun replacement rule =>
        { rule with replacement },
      .of "description" Yaml.Reading.text fun description rule =>
        { rule with description },
      .of "keywords" (Yaml.Reading.list Yaml.Reading.text) fun keywords rule =>
        { rule with keywords },
      .of "examples" (Yaml.Reading.list Yaml.Reading.text) fun examples rule =>
        { rule with examples },
      .of "negative_examples" (Yaml.Reading.list Yaml.Reading.text)
        fun negativeExamples rule => { rule with negativeExamples },
      .of "references" (Yaml.Reading.list Yaml.Reading.text) fun references rule =>
        { rule with references }]
  closed := false

def documentSchema (nesting : Nat) : Yaml.Schema (List Rule) where
  fields :=
    [.of "rules" (Yaml.Reading.list (Yaml.Reading.record ruleSchema default nesting))
      fun rules _ => rules]
  closed := false

def loadAll (text : Bytes) : Except Yaml.Fault (List Rule) :=
  (Yaml.read text fun nesting => Yaml.Reading.record (documentSchema nesting) [] nesting).map
    fun rules => (rules.getD []).map finishLoaded

/-- The only rule of a YAML text. -/
def load (text : Bytes) : Except LoadError Rule :=
  match loadAll text with
  | .error .malformed => .error .malformed
  | .error .incomparable => .error .incomparableKeys
  | .ok [] => .error .noRules
  | .ok [rule] => .ok rule
  | .ok rules => .error (.severalRules rules.length)

/-- The only rule of a file. -/
def loadFile (files : Files) (path : Bytes) : Except LoadError Rule :=
  match files.read path with
  | .ok text => load text
  | .error _ => .error (.unreadable path)

/-- The rules of some files, in order; the first malformed file is reported. -/
def loadEach : List (Bytes × Bytes) → Except LoadError (List Rule)
  | [] => .ok []
  | (path, text) :: rest =>
      match loadAll text with
      | .error .malformed => .error (.malformedFile path)
      | .error .incomparable => .error .incomparableKeys
      | .ok rules =>
          match loadEach rest with
          | .ok more => .ok (rules ++ more)
          | .error error => .error error

def rulesDirectory : Bytes :=
  utf8 "rules"

/-- The rules of all rule documents in the rules directory and below. -/
def loadDirectory (files : Files) : Except LoadError (List Rule) :=
  match files.stat rulesDirectory with
  | .error _ => .error .noDirectory
  | .ok entry =>
      let documents := (entry.leaves fun _ => false).filterMap fun leaf =>
        let path := Path.join (rulesDirectory :: leaf.names)
        match leaf.entry.content? with
        | some text => if Path.extension path == utf8 ".yml" then some (path, text) else none
        | none => none
      loadEach documents

end Reroute.Rule
