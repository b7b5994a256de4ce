import Reroute.Store.Basic
import Reroute.Text.Lowercase
import Reroute.Text.Percent
import Reroute.Text.Quoted

/-!
# Store addresses

An address says where a store is and how it is opened.  It is a path, and a question mark
after the first byte ends the path and starts parameters.  An address that starts with
`file:` is a locator: its path is percent-escaped, may follow the name of the own machine,
and ends at a number sign, and its parameters also say how the file is opened.

Parameters are read twice.  A locator takes them leniently and in order, because a mode
may only narrow what the modes before it allow.  Every address has to have well-formed
parameters besides, and among them are settings that are looked at when the file is open.
-/

namespace Reroute

/-- A named value in an address. -/
structure Parameter where
  name : Bytes
  value : Bytes
  deriving DecidableEq, Repr

/-- Why an address is turned down. -/
inductive AddressError where
  | separator
  | escape (text : Bytes)
  | layers (names : List Bytes)
  | choice (name value : Bytes)
  | switch (name value : Bytes)
  | unusable
  deriving DecidableEq, Repr

def AddressError.message : AddressError → Bytes
  | .separator => utf8 "invalid semicolon separator in query"
  | .escape text => utf8 "invalid URL escape " ++ Quoted.text text
  | .layers names =>
      utf8 "conflicting vfs query parameters: [" ++ Bytes.join (utf8 " ") names ++ utf8 "]"
  | .choice name value => utf8 "unknown " ++ name ++ utf8 " " ++ Quoted.text value
  | .switch name value =>
      utf8 "unknown " ++ name ++ utf8 " " ++ Quoted.text value ++ utf8 ", must be 0 or 1"
  | .unusable => utf8 "<sqlite>"

namespace Parameter

/-- The name and the value in a piece of an address, which an equals sign divides. -/
def divide (piece : Bytes) : Bytes × Bytes :=
  (Bytes.cutAt? 61 piece).getD (piece, [])

def read (piece : Bytes) : Except AddressError Parameter :=
  let (name, value) := divide piece
  match Percent.decodeForm name, Percent.decodeForm value with
  | .ok name, .ok value => .ok ⟨name, value⟩
  | .error text, _ => .error (.escape text)
  | _, .error text => .error (.escape text)

/-- Read parameters, between which ampersands stand.  A semicolon is never allowed. -/
def readAll (text : Bytes) : Except AddressError (List Parameter) :=
  if text.any (· == 59) then .error .separator
  else ((Bytes.splitOn 38 text).filter fun piece => !piece.isEmpty).mapM read

/-- Read parameters of a locator.  Those without a name are left out. -/
def readLeniently (text : Bytes) : List Parameter :=
  ((Bytes.splitOn 38 text).map fun piece =>
    let (name, value) := divide piece
    (⟨Percent.decodeLeniently name, Percent.decodeLeniently value⟩ : Parameter)).filter
      fun parameter => !parameter.name.isEmpty

def valuesOf (name : Bytes) (parameters : List Parameter) : List Bytes :=
  (parameters.filter fun parameter => parameter.name == name).map Parameter.value

end Parameter

/-- What the bytes of a store are written to. -/
inductive Layer where
  | disk
  | memory
  deriving DecidableEq, Repr

namespace Layer

/-- The layer with a name.  Those on disk differ in how they lock files. -/
def named? (name : Bytes) : Option Layer :=
  if name == utf8 "memdb" then some .memory
  else if [utf8 "unix", utf8 "unix-none", utf8 "unix-dotfile", utf8 "unix-excl"].contains name
  then some .disk
  else none

/-- The parameter that names a layer. -/
def parameter : Bytes :=
  utf8 "vfs"

/-- The name of the layer that parameters ask for.  They have to agree once one of them
gives a name. -/
def asked (parameters : List Parameter) : Except AddressError (Option Bytes) :=
  let names := Parameter.valuesOf parameter parameters
  match names.dropWhile List.isEmpty with
  | [] => .ok none
  | name :: others =>
      if others.all (· == name) then .ok (some name) else .error (.layers names)

end Layer

/-- How a store file is opened. -/
inductive OpenMode where
  | reading
  | writing
  | creating
  | memory
  deriving DecidableEq, Repr

namespace OpenMode

def named? (name : Bytes) : Option OpenMode :=
  if name == utf8 "ro" then some .reading
  else if name == utf8 "rw" then some .writing
  else if name == utf8 "rwc" then some .creating
  else if name == utf8 "memory" then some .memory
  else none

/-- A mode may be narrowed to another one. -/
def allows : OpenMode → OpenMode → Bool
  | .memory, _ => true
  | _, .memory => true
  | .creating, _ => true
  | .writing, .creating => false
  | .writing, _ => true
  | .reading, .reading => true
  | .reading, _ => false

end OpenMode

/-- Where a store is. -/
inductive Medium where
  | memory
  | file (path : Bytes)
  deriving DecidableEq, Repr

/-- An address. -/
structure Address where
  path : Bytes
  layer : Option Bytes
  mode : OpenMode
  isFixed : Bool
  parameters : List Parameter
  deriving DecidableEq, Repr

namespace Address

/-- The start of a locator. -/
def scheme : Bytes :=
  utf8 "file:"

/-- What follows the machine in a locator, if that is the own one. -/
def withoutMachine (text : Bytes) : Option Bytes :=
  match Bytes.cutHead? (utf8 "//") text with
  | none => some text
  | some after =>
      let machine := after.takeWhile (· != Bytes.slash)
      if machine.isEmpty || machine == utf8 "localhost" then
        some (after.drop machine.length)
      else none

/-- The value affirms what it is given for: a number, of which the last eight bits count,
or a word. -/
def affirms (value : Bytes) : Bool :=
  match value.takeWhile Numeral.isDigit with
  | [] => [utf8 "on", utf8 "yes", utf8 "true"].contains value.lowercase
  | digits => (Numeral.readNat? digits).getD 0 % 256 != 0

/-- Take account of one parameter of a locator. -/
def obey (address : Address) (parameter : Parameter) : Option Address :=
  if parameter.name == Layer.parameter then
    some { address with layer := some parameter.value }
  else if parameter.name == utf8 "cache" then
    if [utf8 "shared", utf8 "private"].contains parameter.value then some address else none
  else if parameter.name == utf8 "mode" then
    match OpenMode.named? parameter.value with
    | some mode => if address.mode.allows mode then some { address with mode } else none
    | none => none
  else some address

/-- Read a locator, from after its first word. -/
def readLocator (layer : Option Bytes) (parameters : List Parameter) (text : Bytes) :
    Option Address :=
  match withoutMachine text with
  | none => none
  | some text =>
      let text := text.takeWhile (· != 35)
      let (path, tail) := (Bytes.cutAt? 63 text).getD (text, [])
      let options := Parameter.readLeniently tail
      let isFixed :=
        ((Parameter.valuesOf (utf8 "immutable") options).head?.map affirms).getD false
      options.foldlM obey ⟨Percent.decodeLeniently path, layer, .creating, isFixed, parameters⟩

/-- Divide an address at the question mark that ends the path. -/
def divide (text : Bytes) : Bytes × Bytes :=
  match Bytes.cutAt? 63 text with
  | some ([], _) => (text, [])
  | some (path, tail) => (path, tail)
  | none => (text, [])

/-- Read an address.  A zero byte ends what names the file. -/
def read (text : Bytes) : Except AddressError Address :=
  let (path, tail) := divide text
  match Parameter.readAll tail with
  | .error error => .error error
  | .ok parameters =>
      match Layer.asked parameters with
      | .error error => .error error
      | .ok layer =>
          let untilZero (text : Bytes) : Bytes := text.takeWhile (· != 0)
          let address? :=
            match Bytes.cutHead? scheme (untilZero text) with
            | some locator => readLocator layer parameters locator
            | none => some ⟨untilZero path, layer, .creating, false, parameters⟩
          match address? with
          | none => .error .unusable
          | some address =>
              if (address.layer.map fun name => (Layer.named? name).isSome).getD true then
                .ok address
              else .error .unusable

/-- Where the store is.  Without a path it is a passing one. -/
def medium (address : Address) : Medium :=
  if address.mode == .memory || address.layer.bind Layer.named? == some .memory
      || address.path.isEmpty || address.path == memoryPath then .memory
  else .file address.path

/-- The store can be changed. -/
def isWritable (address : Address) : Bool :=
  address.mode != .reading && !address.isFixed

end Address

/-- A parameter whose value is looked at when the store is open. -/
structure Setting where
  name : Bytes
  accepts : Bytes → Bool
  error : Bytes → Bytes → AddressError

namespace Setting

def switchWords : List Bytes :=
  ["1", "t", "T", "TRUE", "true", "True", "0", "f", "F", "FALSE", "false", "False"].map utf8

/-- A setting with some possible values. -/
def choice (name : String) (values : List String) : Setting :=
  ⟨utf8 name, fun value => (values.map utf8).contains value, .choice⟩

/-- A setting that is on or off. -/
def switch (name : String) : Setting :=
  ⟨utf8 name, fun value => switchWords.contains value, .switch⟩

/-- The settings, in the order in which they are looked at. -/
def all : List Setting :=
  [choice "_time_format" ["sqlite", "datetime"],
    choice "_time_integer_format" ["unix", "unix_milli", "unix_micro", "unix_nano"],
    switch "_inttotime",
    switch "_texttotime",
    { choice "_txlock" [] with
      accepts := fun value =>
        [utf8 "deferred", utf8 "immediate", utf8 "exclusive"].contains value.lowercase }]

/-- What is wrong with the first value of a setting.  An empty one counts as none. -/
def fault? (parameters : List Parameter) (setting : Setting) : Option AddressError :=
  match Parameter.valuesOf setting.name parameters with
  | [] => none
  | value :: _ =>
      if value.isEmpty || setting.accepts value then none
      else some (setting.error setting.name value)

end Setting

/-- What is wrong with the settings in an address. -/
def Address.fault? (address : Address) : Option AddressError :=
  Setting.all.findSome? (Setting.fault? address.parameters)

end Reroute
