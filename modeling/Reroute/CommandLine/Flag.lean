import Reroute.Text.Based
import Reroute.Text.Quoted

/-!
# Flags

Flags stand anywhere among the arguments of a command.  A long flag is given by its name
behind two dashes and a short one by its letter behind one dash; short flags without a
value can be run together.  A value follows an equal sign or is the next argument; a
switch takes one only behind an equal sign.  Two dashes alone end the flags.  Short flags
that start with `test.` belong to a test runner and are passed over.
-/

namespace Reroute.CommandLine

/-- What a flag takes. -/
inductive FlagKind where
  | text
  | switch
  | integer
  deriving DecidableEq, Repr

/-- A flag that a command knows. -/
structure Flag where
  name : Bytes
  short : Option UInt8
  kind : FlagKind
  deriving DecidableEq, Repr

namespace Flag

def text (name : String) (short : Option Char) : Flag :=
  ⟨utf8 name, short.map fun letter => letter.toNat.toUInt8, .text⟩

/-- A flag that takes no value. -/
def switch (name : String) (short : Option Char) : Flag :=
  ⟨utf8 name, short.map fun letter => letter.toNat.toUInt8, .switch⟩

def integer (name : String) : Flag :=
  ⟨utf8 name, none, .integer⟩

/-- The flag can stand without a value. -/
def isSwitch (flag : Flag) : Bool :=
  flag.kind == .switch

/-- The flag as messages show it. -/
def label (flag : Flag) : Bytes :=
  match flag.short with
  | some letter => [45, letter] ++ utf8 ", --" ++ flag.name
  | none => utf8 "--" ++ flag.name

end Flag

/-- A value given to a flag. -/
inductive FlagValue where
  | text (content : Bytes)
  | switch (isOn : Bool)
  | integer (value : Int)
  deriving DecidableEq, Repr

/-- Why a value does not suit a flag. -/
inductive ValueError where
  | switch
  | integer (error : Based.Error)
  deriving DecidableEq, Repr

/-- Why arguments cannot be read. -/
inductive FlagError where
  | malformed (argument : Bytes)
  | unknown (name : Bytes)
  | unknownShort (letter : UInt8) (letters : Bytes)
  | needsValue (name : Bytes)
  | needsValueShort (letter : UInt8) (letters : Bytes)
  | value (flag : Flag) (content : Bytes) (error : ValueError)
  deriving DecidableEq, Repr

/-- The wording of what is wrong with a value. -/
def ValueError.message (content : Bytes) : ValueError → Bytes
  | .switch =>
      utf8 "strconv.ParseBool: parsing " ++ Quoted.text content ++ utf8 ": "
        ++ Based.Error.malformed.message
  | .integer error =>
      utf8 "strconv.ParseInt: parsing " ++ Quoted.text content ++ utf8 ": "
        ++ error.message

/-- The byte that stands for a short flag in messages: the first one of the character whose
code the flag is. -/
def shownLetter (letter : UInt8) : UInt8 :=
  (String.utf8EncodeChar (Char.ofNat letter.toNat)).headD letter

def FlagError.message : FlagError → Bytes
  | .malformed argument => utf8 "bad flag syntax: " ++ argument
  | .unknown name => utf8 "unknown flag: --" ++ name
  | .unknownShort letter letters =>
      utf8 "unknown shorthand flag: " ++ Quoted.byte (shownLetter letter) ++ utf8 " in -" ++ letters
  | .needsValue name => utf8 "flag needs an argument: --" ++ name
  | .needsValueShort letter letters =>
      utf8 "flag needs an argument: " ++ Quoted.byte (shownLetter letter) ++ utf8 " in -" ++ letters
  | .value flag content error =>
      utf8 "invalid argument " ++ Quoted.text content ++ utf8 " for "
        ++ Quoted.text flag.label ++ utf8 " flag: " ++ error.message content

/-- The truth value that a text is. -/
def readSwitch? (content : Bytes) : Option Bool :=
  if ["1", "t", "T", "true", "TRUE", "True"].any fun word => utf8 word == content then
    some true
  else if ["0", "f", "F", "false", "FALSE", "False"].any fun word => utf8 word == content
  then some false
  else none

/-- The value that a text is for a flag. -/
def Flag.read (flag : Flag) (content : Bytes) : Except FlagError FlagValue :=
  match flag.kind with
  | .text => .ok (.text content)
  | .switch =>
      match readSwitch? content with
      | some isOn => .ok (.switch isOn)
      | none => .error (.value flag content .switch)
  | .integer =>
      match Based.read content with
      | .ok value => .ok (.integer value)
      | .error error => .error (.value flag content (.integer error))

/-- A flag with the value it is given. -/
structure Assignment where
  name : Bytes
  value : FlagValue
  deriving DecidableEq, Repr

/-- Give a flag the value that a text is. -/
def Flag.assign (flag : Flag) (content : Bytes) : Except FlagError Assignment :=
  match flag.read content with
  | .ok value => .ok ⟨flag.name, value⟩
  | .error error => .error error

def switchedOn : Bytes :=
  utf8 "true"

/-- What an argument that starts with a dash gives: flags with their values, and possibly
a flag whose value is the next argument, with the error if there is none. -/
structure Reading where
  assignments : List Assignment
  pending : Option (Flag × FlagError)
  deriving DecidableEq, Repr

/-- Read a long flag, from behind its dashes. -/
def readLong (flags : List Flag) (name : Bytes) : Except FlagError Reading :=
  if name.head? == some 45 || name.head? == some 61 then
    .error (.malformed (utf8 "--" ++ name))
  else
    let (name, content) :=
      match Bytes.cutAt? 61 name with
      | some (name, content) => (name, some content)
      | none => (name, none)
    match flags.find? fun flag => flag.name == name with
    | none => .error (.unknown name)
    | some flag =>
        match content, flag.isSwitch with
        | some content, _ => (flag.assign content).map fun given => ⟨[given], none⟩
        | none, true => (flag.assign switchedOn).map fun given => ⟨[given], none⟩
        | none, false => .ok ⟨[], some (flag, .needsValue name)⟩

/-- What the flags of a test runner start with. -/
def runnerMark : Bytes :=
  utf8 "test."

/-- Read short flags that are run together, behind those already read, latest first. -/
def readShort (flags : List Flag) (done : List Assignment) : Bytes → Except FlagError Reading
  | [] => .ok ⟨done.reverse, none⟩
  | letter :: rest =>
      if runnerMark.isPrefixOf (letter :: rest) then .ok ⟨done.reverse, none⟩
      else
        match flags.find? fun flag => flag.short == some letter with
        | none => .error (.unknownShort letter (letter :: rest))
        | some flag =>
            match rest with
            | 61 :: first :: content =>
                (flag.assign (first :: content)).map fun given =>
                  ⟨(given :: done).reverse, none⟩
            | _ =>
                if flag.isSwitch then
                  match flag.assign switchedOn with
                  | .error error => .error error
                  | .ok given => readShort flags (given :: done) rest
                else if rest.isEmpty then
                  .ok ⟨done.reverse, some (flag, .needsValueShort letter [letter])⟩
                else (flag.assign rest).map fun given => ⟨(given :: done).reverse, none⟩

/-- What the arguments of a command are: values of flags, in order, and the rest. -/
structure Arguments where
  assignments : List Assignment
  others : List Bytes
  deriving DecidableEq, Repr

/-- Read arguments behind those already read, both latest first. -/
def readFrom (flags : List Flag) (assignments : List Assignment) (others : List Bytes) :
    List Bytes → Except FlagError Arguments
  | [] => .ok ⟨assignments.reverse, others.reverse⟩
  | argument :: rest =>
      match argument with
      | [45, 45] => .ok ⟨assignments.reverse, others.reverse ++ rest⟩
      | 45 :: first :: more =>
          let reading :=
            if first == 45 then readLong flags more else readShort flags [] (first :: more)
          match reading with
          | .error error => .error error
          | .ok ⟨given, none⟩ => readFrom flags (given.reverse ++ assignments) others rest
          | .ok ⟨given, some (flag, error)⟩ =>
              match rest with
              | [] => .error error
              | content :: rest =>
                  match flag.assign content with
                  | .error error => .error error
                  | .ok last =>
                      readFrom flags (last :: given.reverse ++ assignments) others rest
      | _ => readFrom flags assignments (argument :: others) rest

namespace Arguments

def read (flags : List Flag) (arguments : List Bytes) : Except FlagError Arguments :=
  readFrom flags [] [] arguments

/-- The value that a flag was given last. -/
def value? (arguments : Arguments) (name : String) : Option FlagValue :=
  (arguments.assignments.reverse.find? fun given => given.name == utf8 name).map
    Assignment.value

/-- The text given to a flag, or its default. -/
def text (arguments : Arguments) (name : String) (default : Bytes) : Bytes :=
  match arguments.value? name with
  | some (.text content) => content
  | _ => default

def isOn (arguments : Arguments) (name : String) : Bool :=
  arguments.value? name == some (.switch true)

/-- The integer given to a flag, or its default. -/
def integer (arguments : Arguments) (name : String) (default : Int) : Int :=
  match arguments.value? name with
  | some (.integer value) => value
  | _ => default

end Arguments

end Reroute.CommandLine
