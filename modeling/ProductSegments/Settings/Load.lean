import ProductSegments.Settings.Basic
import ProductSegments.Settings.Document
import ProductSegments.Settings.DotEnv
import ProductSegments.Settings.Ini
import ProductSegments.Settings.Json5
import ProductSegments.Settings.Path
import ProductSegments.Settings.Ron
import ProductSegments.Settings.Toml
import ProductSegments.Settings.Yaml.Document

/-!
# Loading settings

Settings come from several sources.  A later one overrides the ones before it: the built-in values,
the files for all services, for the environment and for the service, and the environment variables.

## Main definitions

* `Settings.Source` — the values that a source gives for paths.
* `Settings.variableSource` — the source that the environment variables make.
* `Settings.Format` — the formats of files; `Settings.fileSource?` — the source in a file.
* `Settings.sources?` — all sources, the one that overrides the others last.
* `Settings.load` — the settings.
-/

namespace ProductSegments.Settings

/-- The values that a source gives for paths. -/
abbrev Source := List (Path × Value)

/-- The source of entries whose keys spell paths. -/
def Source.ofEntries (entries : List (String × Value)) : Source :=
  entries.map fun (key, value) => (Path.ofKey key, value)

/-- A tree with a source laid over it, entry by entry.  The entries of a source have no fixed order,
which makes a difference only if one of them names a part of what another one names: there the order
of the list is one of those that can occur. -/
def Value.overlaySource (tree : Value) (source : Source) : Value :=
  source.foldl (fun tree (path, value) => Value.overlayAt value path tree) tree

/-! ### Variables -/

/-- The text with double underscores replaced by dots. -/
def dotted : List Char → List Char
  | '_' :: '_' :: cs => '.' :: dotted cs
  | c :: cs => c :: dotted cs
  | [] => []

/-- The first letters of the variables that hold settings, in lower case. -/
def variableMark : List Char := "segment_".toList

/-- The letter in lower case, where only what may end up as ASCII counts: the sign for Kelvin is a
letter too. -/
def lower (c : Char) : Char := if c = '\u212A' then 'k' else c.toLower

/-- The key that a variable sets.  Letter case in names does not count, and a double underscore stands
between a section and what is in it. -/
def variableKey? (name : String) : Option String :=
  let cs := name.toList.map lower
  if variableMark.isPrefixOf cs then some (String.ofList (dotted (cs.drop variableMark.length)))
  else none

/-- The entries that the variables make. -/
def variableEntries (env : Environment) : List (String × Value) :=
  env.filterMap fun (name, text) =>
    (variableKey? name).map fun key => (key, .ofText (key = "cors.allowed_origins") text)

/-- The source that the variables make, in the order in which they are set.  Of two variables that
spell one path the later one counts.  If one of them names an item of what the other one names, like
`CORS__ALLOWED_ORIGINS[0]` of `CORS__ALLOWED_ORIGINS`, they may as well be taken the other way
round. -/
def variableSource (env : Environment) : Source := .ofEntries (variableEntries env)

/-! ### Files -/

/-- The formats of settings files. -/
inductive Format where
  | toml
  | json
  | yaml
  | ini
  | ron
  | json5
  deriving DecidableEq, Repr

/-- All formats. -/
def Format.all : List Format := [.toml, .json, .yaml, .ini, .ron, .json5]

/-- The end of the names of files that goes without saying. -/
def defaultSuffix : List Char := ".toml".toList

/-- How the names of files in a format may end. -/
def Format.suffixes : Format → List (List Char)
  | toml => [defaultSuffix]
  | json => [".json".toList]
  | yaml => [".yaml".toList, ".yml".toList]
  | ini => [".ini".toList]
  | ron => [".ron".toList]
  | json5 => [".json5".toList]

/-- The entries of a document in a format; `none` if it is malformed. -/
def Format.entries? : Format → String → Option (List (String × Value))
  | toml => Toml.entries?
  | json => Document.entries?
  | yaml => Yaml.entries?
  | ini => Ini.entries?
  | ron => Ron.entries?
  | json5 => Json5.entries?

/-- The files that can be read, by their names. -/
abbrev Files := List (String × String)

/-- The steps of a relative name through folders.  The way up is not known. -/
def steps? (name : List Char) : Option (List (List Char)) :=
  let steps := (name.splitOn '/').filter fun step => !step.isEmpty && step ≠ ['.']
  if name.head? = some '/' || steps.contains "..".toList then none else some steps

/-- The text of the file that a name leads to, if there is one. -/
def Files.get? (files : Files) (name : List Char) : Option String := do
  let steps ← steps? name
  let (_, text) ← files.find? fun (n, _) => steps? n.toList = some steps
  return text

/-- The document with a base name, with its format.  Behind the suffix that goes without saying there
may be that of another format; but a name that is a suffix alone has no suffix. -/
def Files.document? (files : Files) (base : List Char) : Option (Format × String) :=
  let name := base ++ defaultSuffix
  match files.get? name with
  | some text =>
    if (name.splitOn '/').getLast? = some defaultSuffix then none else some (.toml, text)
  | none => Format.all.findSome? fun format => format.suffixes.findSome? fun suffix =>
    (files.get? (name ++ suffix)).map fun text => (format, text)

/-- The text without a mark of byte order in front. -/
def withoutMark (text : String) : String :=
  match text.toList with
  | '\uFEFF' :: cs => String.ofList cs
  | _ => text

/-- The source in the file with a base name, which is empty if there is no such file; `none` if it is
malformed. -/
def fileSource? (files : Files) (base : String) : Option Source :=
  match files.document? base.toList with
  | none => some []
  | some (format, text) => (format.entries? (withoutMark text)).map Source.ofEntries

/-! ### All sources -/

/-- The name of the environment that the service runs in. -/
def environmentName (env : Environment) : String := (env.get? "SEGMENT_ENV").getD "development"

/-- What holds of a service in an environment unless it is set otherwise. -/
def builtInSource (service name : String) : Source :=
  [([.key "service_name"], .text service), ([.key "environment"], .text name)]

/-- All sources of the settings of a service, the one that overrides the others last. -/
def sources? (files : Files) (env : Environment) (service : String) : Option (List Source) := do
  let name := environmentName env
  return [
    builtInSource service name,
    ← fileSource? files "default",
    ← fileSource? files name,
    ← fileSource? files service,
    variableSource env]

/-- The number of the port that the variable `PORT` asks for.  A text that is no such number counts
for nothing. -/
def requestedPort? (env : Environment) : Option UInt16 := do
  let n ← Value.natural (← env.get? "PORT")
  if n < UInt16.size then some (.ofNat n) else none

/-- The environment with the variables of an environment file, if there is one. -/
def fullEnvironment (files : Files) (env : Environment) : Environment :=
  match files.get? ".env".toList with
  | some file => DotEnv.load env file
  | none => env

/-- The settings of a service; `none` if a source is malformed or a setting is not what it should
be. -/
def load (files : Files) (env : Environment) (service : String) : Option Config := do
  let env := fullEnvironment files env
  let tree := (← sources? files env service).foldl Value.overlaySource (.table [])
  let config ← Config.ofValue? tree
  match requestedPort? env with
  | some tcpPort => return { config with listener := { config.listener with tcpPort } }
  | none => return config

end ProductSegments.Settings
