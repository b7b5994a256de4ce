import Reroute.CommandLine.Flag
import Reroute.Text.Lowercase

/-!
# Commands

Which command arguments call.  The first argument that is neither a flag nor the value of
one names the command, and the next may name one below it.  Which arguments are values is
judged by the flags known at the level reached: a flag that is not known there is taken to
have one.

A name that no command has is answered with the names that are close to it.
-/

namespace Reroute.CommandLine

/-- The shells that arguments can be completed in. -/
inductive Shell where
  | bash
  | zsh
  | fish
  | powershell
  deriving DecidableEq, Repr

def Shell.label : Shell → String
  | .bash => "bash"
  | .zsh => "zsh"
  | .fish => "fish"
  | .powershell => "powershell"

def Shell.all : List Shell :=
  [.bash, .zsh, .fish, .powershell]

/-- The commands of the program. -/
inductive Command where
  | top
  | transform
  | serve
  | report
  | rules
  | listRules
  | resolve
  | merge
  | version
  | help
  | completion
  | completionFor (shell : Shell)
  deriving DecidableEq, Repr

def programName : Bytes :=
  utf8 "importshim"

/-- The flags that every command knows. -/
def commonFlags : List Flag :=
  [.text "config" none, .switch "verbose" (some 'v'), .switch "quiet" (some 'q')]

namespace Command

/-- The commands below a command, with their names. -/
def children : Command → List (String × Command)
  | .top =>
      [("rewrite", .transform), ("serve", .serve), ("report", .report), ("rules", .rules),
        ("resolve", .resolve), ("merge", .merge), ("version", .version), ("help", .help),
        ("completion", .completion)]
  | .rules => [("list", .listRules)]
  | .completion => Shell.all.map fun shell => (shell.label, .completionFor shell)
  | _ => []

def ownFlags : Command → List Flag
  | .transform =>
      [.text "out-dir" none, .text "format" none, .text "mode" none, .text "store" none,
        .switch "incremental" none, .switch "inline-map" none,
        .switch "include-hidden" none, .integer "workers"]
  | .serve => [.text "mode" none]
  | .report =>
      [.text "store" none, .text "format" none, .text "color" none, .integer "limit"]
  | .listRules => [.text "format" none]
  | .resolve => [.text "format" none]
  | .merge => [.text "output" (some 'o')]
  | .completionFor _ => [.switch "no-descriptions" none]
  | _ => []

def flags (command : Command) : List Flag :=
  command.ownFlags ++ commonFlags

def helpFlag : Flag :=
  .switch "help" (some 'h')

/-- The command does something when called. -/
def isRunnable : Command → Bool
  | .top => false
  | .rules => false
  | .help => false
  | .completion => false
  | _ => true

/-- The commands that are suggested for a name that no command has. -/
def suggested : List Bytes :=
  (children .top).filterMap fun (name, command) =>
    if command == .help then none else some (utf8 name)

end Command

/-- The next argument is the value of this one, as far as the given flags tell. -/
def takesNext (flags : List Flag) (argument : Bytes) : Bool :=
  match argument with
  | 45 :: 45 :: name =>
      !argument.any (· == 61)
        && !(flags.any fun flag => flag.name == name && flag.isSwitch)
  | [45, letter] =>
      letter != 61 && !(flags.any fun flag => flag.short == some letter && flag.isSwitch)
  | _ => false

/-- The arguments that are neither flags nor their values. -/
def withoutFlags (flags : List Flag) : List Bytes → List Bytes
  | [] => []
  | argument :: rest =>
      if argument == [45, 45] then []
      else if takesNext flags argument then
        match rest with
        | [] => []
        | [_] => []
        | _ :: others => withoutFlags flags others
      else if argument.isEmpty || argument.head? == some 45 then withoutFlags flags rest
      else argument :: withoutFlags flags rest

/-- The arguments without the first one that is the given name. -/
def withoutName (flags : List Flag) (name : Bytes) : List Bytes → List Bytes
  | [] => []
  | argument :: rest =>
      if argument == [45, 45] then argument :: rest
      else if takesNext flags argument then
        match rest with
        | [] => [argument]
        | value :: others => argument :: value :: withoutName flags name others
      else if argument.head? != some 45 && argument == name then rest
      else argument :: withoutName flags name rest

/-- A command with its arguments. -/
structure Call where
  command : Command
  arguments : List Bytes
  deriving DecidableEq, Repr

namespace Call

/-- The call one level down, if the arguments name a command there. -/
def descend? (call : Call) : Option Call :=
  match withoutFlags call.command.flags call.arguments with
  | [] => none
  | name :: _ =>
      match call.command.children.find? fun child => utf8 child.1 == name with
      | none => none
      | some (_, command) =>
          some ⟨command, withoutName call.command.flags name call.arguments⟩

/-- Go down at most a number of levels. -/
def descend : Nat → Call → Call
  | 0, call => call
  | levels + 1, call =>
      match call.descend? with
      | some lower => descend levels lower
      | none => call

/-- How many levels of commands there are below the program. -/
def levels : Nat := 2

end Call

/-- The row of edit distances that follows another one, from its second entry on.  `left`
is the entry before. -/
def nextDistances (byte : UInt8) (left : Nat) : Bytes → List Nat → List Nat
  | other :: others, diagonal :: above :: rest =>
      let distance :=
        if byte == other then diagonal else min (min above left) diagonal + 1
      distance :: nextDistances byte distance others (above :: rest)
  | _, _ => []

/-- The least number of bytes to insert, drop or replace to get from one text to
another. -/
def editDistance (source target : Bytes) : Nat :=
  let first := List.range (target.length + 1)
  let last :=
    source.foldl
      (fun row byte =>
        let start := row.headD 0 + 1
        start :: nextDistances byte start target row)
      first
  last.getLastD 0

/-- How far from a name a suggestion may be. -/
def nearDistance : Nat := 2

/-- The commands close to a name: those it starts, and those a few edits away. -/
def suggestions (name : Bytes) : List Bytes :=
  Command.suggested.filter fun command =>
    decide (editDistance name.lowercase command ≤ nearDistance)
      || name.lowercase.isPrefixOf command

/-- The call that arguments make, or the name that no command has. -/
def findCall (arguments : List Bytes) : Except Bytes Call :=
  let call := Call.descend Call.levels ⟨.top, arguments⟩
  if call.command == .top then
    match withoutFlags call.command.flags call.arguments with
    | name :: _ => .error name
    | [] => .ok call
  else .ok call

end Reroute.CommandLine
