import WindowedMean.Config.Formats
import WindowedMean.Files
import WindowedMean.Text.Blank
import WindowedMean.Text.Unsigned

/-! Loading the configuration of a program.

    A file is read as JSON or as TOML, by the extension of its name, and has to make sense on its
    own. Without a given path the sources are, the first one that is there:

        1. the file that the environment names    (it has to be there)
        2. config/running_average.toml
        3. config/running_average.json
        4. the standard configuration

    Then the environment overrides up to four settings, and the result has to make sense again. A
    source that fails is an error; a later one never stands in for it. -/

namespace WindowedMean

/-- How texts are read as configurations. -/
structure Formats where
  json : String → Option Config
  toml : String → Option Config

/-- JSON and TOML. -/
def Formats.standard : Formats := ⟨fun s => (Config.ofJson s).toOption, Config.ofToml?⟩

/-- The variables of the environment, of which only texts are seen. -/
abbrev Environment := String → Option String

/-- The variables of the environment as they are, rows of bytes. -/
abbrev RawEnvironment := String → Option ByteArray

/-- What is seen of an environment: a variable that is no text counts as unset. -/
def RawEnvironment.seen (raw : RawEnvironment) : Environment :=
  fun name => (raw name).bind String.fromUTF8?

/-- The variable that names a file. -/
def pathVariable : String := "RUNNING_AVG_CONFIG"

/-- The variable that sets the number of nodes. -/
def nodesVariable : String := "RUNNING_AVG_NODES"

/-- The variable that sets the capacity of the windows. -/
def windowVariable : String := "RUNNING_AVG_WINDOW"

/-- The variable that sets the address. -/
def bindVariable : String := "RUNNING_AVG_BIND"

/-- The variable that switches the metrics on. -/
def metricsVariable : String := "RUNNING_AVG_METRICS"

/-- Why a configuration was not loaded. -/
inductive LoadError where
  | unreadable (path : String)
  | badJson (path : String)
  | badToml (path : String)
  | badNodes (text : String) (fault : Text.NumberFault)
  | badWindow (text : String) (fault : Text.NumberFault)
  | missing
  | invalid (fault : ConfigFault)
  deriving DecidableEq, Repr

/-- What an operator reads about the failure. -/
def LoadError.message : LoadError → String
  | .unreadable path => s!"reading config from {path}"
  | .badJson path => s!"parsing JSON config {path}"
  | .badToml path => s!"parsing TOML config {path}"
  | .badNodes text _ => s!"{nodesVariable}={text} is not a node count"
  | .badWindow text _ => s!"{windowVariable}={text} is not a window size"
  | .missing => s!"{pathVariable} points to non-existent path"
  | .invalid fault => fault.message

/-- The part of a file name after its last dot; a dot at the start does not count. -/
def extensionChars (name : List Char) : List Char :=
  match name.reverse.span (· != '.') with
  | (ext, _ :: _ :: _) => ext.reverse
  | _ => []

/-- The last name of a path; `..` is no name. -/
def fileName (path : String) : String :=
  match ((FileTree.names path).filter fun n => n != "" && n != ".").getLast? with
  | some n => if n = ".." then "" else n
  | none => ""

/-- The file is read as JSON. -/
def namesJson (path : String) : Bool :=
  (extensionChars (fileName path).toList).map Char.toLower == "json".toList

namespace Config

/-- The configuration itself if it makes sense. -/
def checked (c : Config) : Except LoadError Config :=
  match c.validate with
  | .ok () => .ok c
  | .error fault => .error (.invalid fault)

/-- The text of a file. -/
def readText (fs : FileSystem) (path : String) : Option String :=
  match fs path with
  | some (.file bytes) => String.fromUTF8? bytes
  | _ => none

/-- The configuration that a file holds, whether or not it makes sense. -/
def readFile (f : Formats) (fs : FileSystem) (path : String) : Except LoadError Config :=
  match readText fs path with
  | none => .error (.unreadable path)
  | some text =>
    if namesJson path then
      match f.json text with
      | some c => .ok c
      | none => .error (.badJson path)
    else
      match f.toml text with
      | some c => .ok c
      | none => .error (.badToml path)

/-- Loads a file. -/
def loadFile (f : Formats) (fs : FileSystem) (path : String) : Except LoadError Config :=
  match readFile f fs path with
  | .ok c => c.checked
  | .error e => .error e

/-- Where the first TOML file is looked for. -/
def tomlPath : String := "config/running_average.toml"

/-- Where the first JSON file is looked for. -/
def jsonPath : String := "config/running_average.json"

theorem not_namesJson_tomlPath : ¬ namesJson tomlPath := by decide +kernel

theorem namesJson_jsonPath : namesJson jsonPath := by decide +kernel

/-- The configuration of the first source that is there. -/
def base (f : Formats) (fs : FileSystem) (env : Environment) : Except LoadError Config :=
  match env pathVariable with
  | some path => if (fs path).isSome then loadFile f fs path else .error .missing
  | none =>
    if (fs tomlPath).isSome then loadFile f fs tomlPath
    else if (fs jsonPath).isSome then loadFile f fs jsonPath
    else .ok standard

/-- Overrides what a variable sets; an unset one changes nothing. -/
def override {α : Type} (v : Option String) (read : String → Except LoadError α)
    (put : Config → α → Config) (c : Config) : Except LoadError Config :=
  match v with
  | none => .ok c
  | some text => (read text).map (put c)

/-- A number, trimmed. -/
def readNumber (failure : String → Text.NumberFault → LoadError) (text : String) :
    Except LoadError Nat :=
  match Text.unsigned (Text.trim text) with
  | .ok n => .ok n
  | .error fault => .error (failure text fault)

/-- Makes the settings of the environment, in their order. -/
def overrideAll (env : Environment) (c : Config) : Except LoadError Config := do
  let c ← override (env nodesVariable) (readNumber .badNodes) (fun c n => c.set (.nodes n)) c
  let c ← override (env windowVariable) (readNumber .badWindow)
    (fun c n => c.set (.windowCapacity n)) c
  let c ← override (env bindVariable) (fun s => .ok (Text.trim s)) (fun c s => c.set (.bind s)) c
  override (env metricsVariable) (fun s => .ok (Text.trim s == "1")) (fun c b => c.set (.metrics b)) c

/-- Loads the configuration of the first source that is there, with the settings of the
    environment. -/
def load (f : Formats) (fs : FileSystem) (env : Environment) : Except LoadError Config := do
  let c ← base f fs env
  let c ← overrideAll env c
  c.checked

end Config

end WindowedMean
