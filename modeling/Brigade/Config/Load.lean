/-
Loading the configuration.

Four layers, each laid on the one before: what is built in, the file `default.toml`, the file of the profile, and the
variables that start with `APP__`. The profile is what RUN_ENV says, else APP_ENV, else development; built in, the
environment is named after it. The profile is a path from the directory of the settings files (`fileFor`). Then every
name must be one of a setting, every value must be readable as what it sets, and the settings must fulfil their
conditions.

Only TOML files are considered: a file in another format is no settings file, whatever its name.
-/
import Brigade.Config.Basic
import Brigade.Config.Setting

namespace Brigade

/-- where settings come from -/
structure ConfigSources where
  /-- the name of the configuration directory, empty if it is not known -/
  directory : String
  /-- the names and texts of the TOML files in it -/
  files : List (String × String)
  /-- the variables of the process -/
  vars : List (String × String)
deriving DecidableEq, Repr

inductive ConfigError where
  | unreadableFile (name : String)
  | unknownSetting (name : String)
  | unreadableSetting (name : String)
  | invalid (f : Failure)
deriving DecidableEq, Repr

namespace ConfigError

/-- the settings were read and do not fulfil their conditions -/
def isInvalid : ConfigError → Bool
  | invalid _ => true
  | _ => false

def text : ConfigError → String
  | unreadableFile n => "cannot read " ++ n
  | unknownSetting n => (ReadError.unknownField n AppConfig.names).message?.getD ""
  | unreadableSetting n => "cannot read the value of " ++ n
  | invalid f => f.text

end ConfigError

namespace AppConfig

/-! ## From one layer -/

/-- a setting by its name, or its default -/
def setting {α : Type} (l : Layer) (name : String) (as : Setting → Option α) (standard : α) : Except ConfigError α :=
  match l.lookup name with
  | none => .ok standard
  | some s => match as s with
    | some a => .ok a
    | none => .error (.unreadableSetting name)

def ofLayer (l : Layer) : Except ConfigError AppConfig :=
  match l.find? fun p => !names.contains p.1 with
  | some p => .error (.unknownSetting p.1)
  | none => do
    let e ← setting l "environment" Setting.toText? standard.environment
    let v ← setting l "log_level" Setting.toText? standard.logLevel
    let j ← setting l "log_json" Setting.toBool? standard.logJson
    let r ← setting l "concurrency_max_retries" Setting.toNat32? standard.maxRetries
    let d ← setting l "concurrency_retry_delay_ms" Setting.toNat64? standard.retryDelay
    let o ← setting l "order_number_prefix" Setting.toText? standard.orderNumberFront
    let c ← setting l "event_channel_capacity" Setting.toNat64? standard.eventCapacity
    return ⟨e, v, j, r, d, o, c⟩

end AppConfig

namespace ConfigSources

/-! ## The layers -/

/-- the profile that is selected -/
def profile (s : ConfigSources) : String :=
  ((s.vars.lookup "RUN_ENV").or (s.vars.lookup "APP_ENV")).getD AppConfig.standard.environment

/-- the layer that is built in -/
def builtIn (s : ConfigSources) : Layer :=
  [("environment", .text s.profile), ("log_level", .text AppConfig.standard.logLevel),
    ("log_json", .bool AppConfig.standard.logJson)]

/-- a file name with an extension, and the extension is the one of settings files -/
def isSettingsName (name : String) : Bool :=
  let cs := name.toList
  let ending := ['.', 't', 'o', 'm', 'l']
  ending.isSuffixOf cs && ending.length < cs.length

/-- the steps of a path that starts in the directory, without those that stay where they are -/
def pathSteps (path : String) : List String :=
  ((path.toList.splitOn '/').map String.ofList).filter fun n => n != "" && n != "."

/-- out of the directory and into it again leads nowhere else -/
def inside (directory : String) : List String → List String
  | a :: b :: rest => if a = ".." ∧ b = directory then inside directory rest else a :: b :: rest
  | ns => ns

/-- the name within the directory that a path leads to, and whether the path may end in a file -/
def nameIn? (directory path : String) : Option (String × Bool) :=
  if path.toList.head? = some '/' then none
  else match inside directory (pathSteps path) with
    | [n] => if n = ".." then none else some (n, (path.toList.splitOn '/').getLast? = some n.toList)
    | _ => none

/-- the names that a path may stand for, the first one before the second; of the extensions that a settings file may
have, the one of TOML files is the only one that is tried -/
def namesFor (s : ConfigSources) (path : String) : List String :=
  match nameIn? s.directory path with
  | none => []
  | some (n, whole) => (if whole then [n] else []) ++ [n ++ ".toml"]

/-- the file that is read for a path: one of just that name hides the one with the extension -/
def fileFor (s : ConfigSources) (path : String) : Option (String × String) :=
  ((s.namesFor path).findSome? fun n => (s.files.lookup n).map fun text => (n, text)).filter fun f => isSettingsName f.1

/-- the layer of a file; a file that is not there says nothing -/
def fileLayer (s : ConfigSources) (name : String) : Except ConfigError Layer :=
  match s.fileFor name with
  | none => .ok []
  | some f => match Toml.parse f.2 with
    | some ms => .ok (Layer.ofToml ms)
    | none => .error (.unreadableFile f.1)

/-- what is refused ends in a refusal -/
def orRefuse {α : Type} : Except ConfigError α → Outcome ConfigError α
  | .ok a => .ok a
  | .error e => .refused e

/-- all layers as one -/
def merged (s : ConfigSources) : Outcome ConfigError Layer := do
  let base ← orRefuse (s.fileLayer "default")
  let l ← base.laidOn s.builtIn
  let own ← orRefuse (s.fileLayer s.profile)
  let l ← own.laidOn l
  (Layer.ofVariables s.vars).laidOn l

/-- the configuration -/
def load (s : ConfigSources) : Outcome ConfigError AppConfig := do
  let l ← s.merged
  let c ← orRefuse (AppConfig.ofLayer l)
  match Validation.failure? c.complaints with
  | some f => .refused (.invalid f)
  | none => .ok c

end ConfigSources

end Brigade
