import Reroute.Config.Mode
import Reroute.Files.Tree
import Reroute.Yaml.Record

/-!
# Configuration

A configuration is read from a YAML document that may have no other entries than the ones
listed here.  It is checked as written and then completed: whatever is left out, empty or
not positive gets its default.  How many workers there are by default depends on the
machine, so that number stays open.
-/

namespace Reroute

/-- A configuration as written. -/
structure Draft where
  mode : Bytes
  sourceRoot : Bytes
  outDir : Bytes
  storePath : Bytes
  incremental : Bool
  workers : Int
  includeHidden : Bool
  maxFileSize : Int
  extensions : List Bytes
  sourcesContent : Option Bool
  mapSuffix : Bytes
  inlineMap : Bool
  deriving DecidableEq, Repr, Inhabited

/-- A complete configuration.  `workers` is absent when the machine decides. -/
structure Config where
  mode : Mode
  sourceRoot : Bytes
  outDir : Bytes
  storePath : Bytes
  incremental : Bool
  workers : Option Int
  includeHidden : Bool
  maxFileSize : Int
  extensions : List Bytes
  sourcesContent : Option Bool
  mapSuffix : Bytes
  inlineMap : Bool
  deriving DecidableEq, Repr, Inhabited

namespace Config

/-- Why there is no configuration. -/
inductive Error where
  | malformed
  | incomparableKeys
  | mode (error : Mode.Unknown)
  | negativeWorkers
  | extensionWithoutDot (found : Bytes)
  | separatorInSuffix (suffix : Bytes)
  | unreadable (path : Bytes)
  | inFile (path : Bytes) (error : Error)
  deriving DecidableEq, Repr

def Error.message : Error → Bytes
  | .malformed => utf8 "parsing YAML: <yaml>"
  | .incomparableKeys => utf8 "comparing keys of a mapping: one of them is a collection"
  | .mode error => error.message
  | .negativeWorkers => utf8 "workers must not be negative"
  | .extensionWithoutDot found =>
      utf8 "extension " ++ Quoted.text found ++ utf8 " must start with a dot"
  | .separatorInSuffix suffix =>
      utf8 "map_suffix " ++ Quoted.text suffix
        ++ utf8 " must not contain a path separator"
  | .unreadable path =>
      utf8 "reading config " ++ path ++ utf8 ": " ++ FileError.missing.message
  | .inFile path error => utf8 "loading config " ++ path ++ utf8 ": " ++ error.message

/-- The error that an error in a file comes down to. -/
def Error.cause : Error → Error
  | .inFile _ error => error.cause
  | error => error

/-- The largest file that is transformed, unless configured otherwise. -/
def defaultMaxFileSize : Int := 52428800

/-- The ending of map files, unless configured otherwise. -/
def defaultMapSuffix : Bytes :=
  utf8 ".map"

/-- The extensions of chunk files, unless configured otherwise. -/
def defaultExtensions : List Bytes :=
  [utf8 ".js", utf8 ".mjs", utf8 ".cjs"]

/-- The file a configuration is read from when none is named. -/
def defaultFile : Bytes :=
  utf8 "importshim.yml"

/-- Check the settings that can be wrong; the first fault, in this order, is reported. -/
def check (workers : Int) (extensions : List Bytes) (mapSuffix : Bytes) :
    Except Error Unit :=
  if workers < 0 then .error .negativeWorkers
  else
    match extensions.find? fun extension => extension.head? != some Bytes.dot with
    | some extension => .error (.extensionWithoutDot extension)
    | none =>
        if mapSuffix.any fun byte => byte == 47 || byte == 92 then
          .error (.separatorInSuffix mapSuffix)
        else .ok ()

end Config

namespace Draft

/-- Check a configuration as written. -/
def validate (draft : Draft) : Except Config.Error Mode :=
  match Mode.parse draft.mode with
  | .error error => .error (.mode error)
  | .ok mode =>
      match Config.check draft.workers draft.extensions draft.mapSuffix with
      | .error error => .error error
      | .ok _ => .ok mode

/-- Maps embed the text of the code: as configured, or else in a mode written out as
development. -/
def includesContent (draft : Draft) : Bool :=
  draft.sourcesContent.getD (draft.mode == Mode.development.label)

def complete (draft : Draft) (mode : Mode) : Config :=
  { mode := mode
    sourceRoot := draft.sourceRoot
    outDir := draft.outDir
    storePath := if draft.storePath.isEmpty then memoryPath else draft.storePath
    incremental := draft.incremental
    workers := if draft.workers ≤ 0 then none else some draft.workers
    includeHidden := draft.includeHidden
    maxFileSize :=
      if draft.maxFileSize ≤ 0 then Config.defaultMaxFileSize else draft.maxFileSize
    extensions :=
      if draft.extensions.isEmpty then Config.defaultExtensions else draft.extensions
    sourcesContent := draft.sourcesContent
    mapSuffix := if draft.mapSuffix.isEmpty then Config.defaultMapSuffix else draft.mapSuffix
    inlineMap := draft.inlineMap }

/-- The entries of a configuration document, which may have no others. -/
def schema : Yaml.Schema Draft where
  fields :=
    [.of "mode" Yaml.Reading.text fun mode draft => { draft with mode },
      .of "source_root" Yaml.Reading.text fun sourceRoot draft =>
        { draft with sourceRoot },
      .of "out_dir" Yaml.Reading.text fun outDir draft => { draft with outDir },
      .of "store_path" Yaml.Reading.text fun storePath draft => { draft with storePath },
      .of "incremental" Yaml.Reading.flag fun incremental draft =>
        { draft with incremental },
      .of "workers" Yaml.Reading.integer fun workers draft => { draft with workers },
      .of "include_hidden" Yaml.Reading.flag fun includeHidden draft =>
        { draft with includeHidden },
      .of "max_file_size" Yaml.Reading.integer fun maxFileSize draft =>
        { draft with maxFileSize },
      .of "extensions" (Yaml.Reading.list Yaml.Reading.text) fun extensions draft =>
        { draft with extensions },
      .of "sources_content" Yaml.Reading.flag fun sourcesContent draft =>
        { draft with sourcesContent },
      .of "map_suffix" Yaml.Reading.text fun mapSuffix draft => { draft with mapSuffix },
      .of "inline_map" Yaml.Reading.flag fun inlineMap draft => { draft with inlineMap }]
  closed := true

/-- Read a configuration from a YAML text; an empty document is an empty configuration. -/
def read (text : Bytes) : Except Yaml.Fault Draft :=
  (Yaml.read text (Yaml.Reading.record schema default)).map (·.getD default)

end Draft

namespace Config

/-- The configuration that applies when there is no document. -/
def standard : Config :=
  (default : Draft).complete .production

/-- Maps embed the text of the code: as configured, or else in development. -/
def includesContent (config : Config) : Bool :=
  config.sourcesContent.getD config.mode.isDevelopment

/-- Read, check and complete a configuration. -/
def parse (text : Bytes) : Except Error Config :=
  match Draft.read text with
  | .error .malformed => .error .malformed
  | .error .incomparable => .error .incomparableKeys
  | .ok draft =>
      match draft.validate with
      | .error error => .error error
      | .ok mode => .ok (draft.complete mode)

/-- Load the configuration from a file.  The empty path means the default file, which
need not exist. -/
def load (files : Files) (path : Bytes) : Except Error Config :=
  let file := if path.isEmpty then defaultFile else path
  match files.read file with
  | .ok text =>
      match parse text with
      | .ok config => .ok config
      | .error error => .error (.inFile file error)
  | .error error =>
      if path.isEmpty && error == .missing then .ok standard
      else .error (.unreadable file)

end Config

end Reroute
