import FlowDiagram.FileFault
import FlowDiagram.SocketAddress
import FlowDiagram.Text.Blank
import FlowDiagram.Text.Escaped
import FlowDiagram.Text.Numeral
import FlowDiagram.Toml

/-!
# Settings of the service

Settings come in layers: what is built in, a file, the environment, and the command line.  A layer
overrides those before it.  Limits must not be zero in the end, whatever a single layer says.
-/

namespace FlowDiagram

/-- Which program draws the graphs. -/
inductive RendererChoice where
  | graphviz
  /-- No program: the DOT text itself is handed out. -/
  | dot
  deriving DecidableEq

inductive ImageFormat where
  | svg
  | png
  deriving DecidableEq

structure Settings where
  /-- Where the service listens. -/
  bind : SocketAddress
  renderer : RendererChoice
  graphvizCommand : String
  imageFormat : ImageFormat
  maxSourceBytes : Nat
  /-- The greatest depth that a request may ask for. -/
  maxDepth : Nat
  maxNodes : Nat
  /-- In milliseconds. -/
  compileTimeout : Nat
  /-- In milliseconds. -/
  renderTimeout : Nat
  /-- How many typings are kept. -/
  storeCapacity : Nat
  /-- The directory of further files that are served. -/
  staticDirectory : Option String
  deriving DecidableEq

/-- What is built in. -/
def Settings.builtIn : Settings where
  bind := .v4 ⟨127, 0, 0, 1⟩ 5000
  renderer := .graphviz
  graphvizCommand := "dot"
  imageFormat := .svg
  maxSourceBytes := 1048576
  maxDepth := 64
  maxNodes := 100000
  compileTimeout := 5000
  renderTimeout := 10000
  storeCapacity := 1024
  staticDirectory := none

/-! ## Names -/

def RendererChoice.all : List RendererChoice := [.graphviz, .dot]

def RendererChoice.name : RendererChoice → String
  | .graphviz => "graphviz"
  | .dot => "dot"

def ImageFormat.all : List ImageFormat := [.svg, .png]

def ImageFormat.name : ImageFormat → String
  | .svg => "svg"
  | .png => "png"

def ImageFormat.contentType : ImageFormat → String
  | .svg => "image/svg+xml"
  | .png => "image/png"

/-- The settings one by one, in the order in which they are judged. -/
inductive Setting where
  | bind
  | renderer
  | graphvizCommand
  | imageFormat
  | maxSourceBytes
  | maxDepth
  | maxNodes
  | compileTimeout
  | renderTimeout
  | storeCapacity
  | staticDirectory
  deriving DecidableEq

namespace Setting

def all : List Setting :=
  [.bind, .renderer, .graphvizCommand, .imageFormat, .maxSourceBytes, .maxDepth, .maxNodes,
    .compileTimeout, .renderTimeout, .storeCapacity, .staticDirectory]

/-- The key of a setting in a file. -/
def key : Setting → String
  | .bind => "bind"
  | .renderer => "renderer"
  | .graphvizCommand => "graphviz_command"
  | .imageFormat => "image_format"
  | .maxSourceBytes => "max_source_bytes"
  | .maxDepth => "max_depth"
  | .maxNodes => "max_nodes"
  | .compileTimeout => "compile_timeout_ms"
  | .renderTimeout => "render_timeout_ms"
  | .storeCapacity => "typing_store_capacity"
  | .staticDirectory => "static_dir"

/-- The variable of a setting in the environment. -/
def variableName (setting : Setting) : String :=
  "DFLC_" ++ setting.key.toUpper

/-- Change a setting that is a number; nothing for any other setting. -/
def withSize? (setting : Setting) (settings : Settings) (size : Nat) : Option Settings :=
  match setting with
  | .maxSourceBytes => some { settings with maxSourceBytes := size }
  | .maxDepth => some { settings with maxDepth := size }
  | .maxNodes => some { settings with maxNodes := size }
  | .compileTimeout => some { settings with compileTimeout := size }
  | .renderTimeout => some { settings with renderTimeout := size }
  | .storeCapacity => some { settings with storeCapacity := size }
  | _ => none

/-- Whether a setting is a limit that is zero; no depth at all is a limit like any other. -/
def isZero (setting : Setting) (settings : Settings) : Bool :=
  match setting with
  | .maxSourceBytes => settings.maxSourceBytes = 0
  | .maxNodes => settings.maxNodes = 0
  | .compileTimeout => settings.compileTimeout = 0
  | .renderTimeout => settings.renderTimeout = 0
  | .storeCapacity => settings.storeCapacity = 0
  | _ => false

end Setting

/-! ## Errors -/

inductive SettingsError where
  | unreadable (path : String) (fault : FileFault)
  | malformed (path : String)
  | badVariable (setting : Setting) (value reason : String)
  | zero (setting : Setting)
  deriving DecidableEq

def SettingsError.message : SettingsError → String
  | .unreadable path fault => "cannot read config file " ++ path ++ ": " ++ fault.message
  | .malformed path => "invalid config file " ++ path
  | .badVariable setting value reason =>
    "invalid value " ++ Text.quoted value ++ " for " ++ setting.variableName ++ ": " ++ reason
  | .zero setting => "`" ++ setting.key ++ "` must be at least 1"

/-! ## The layer of the file -/

/-- Change a setting to a value from a file, unless the value is of the wrong kind. -/
def Setting.ofValue? (setting : Setting) (settings : Settings) (value : Toml.Value) :
    Option Settings :=
  match setting with
  | .bind => do
    let address ← SocketAddress.read? (← value.text?)
    return { settings with bind := address }
  | .renderer => do
    let name ← value.choice?
    let choice ← RendererChoice.all.find? (·.name = name)
    return { settings with renderer := choice }
  | .graphvizCommand => value.text?.map fun command => { settings with graphvizCommand := command }
  | .imageFormat => do
    let name ← value.choice?
    let format ← ImageFormat.all.find? (·.name = name)
    return { settings with imageFormat := format }
  | .staticDirectory =>
    value.text?.map fun directory => { settings with staticDirectory := some directory }
  | setting => do setting.withSize? settings (← value.natural?)

/-- Take settings from the text of a file, which must set nothing else. -/
def Settings.ofFile? (settings : Settings) (text : String) : Option Settings := do
  let bindings ← Toml.read? text
  bindings.foldlM (fun settings (key, value) => do
    let setting ← Setting.all.find? (·.key = key)
    setting.ofValue? settings value) settings

/-! ## The layer of the environment -/

/-- One of several things by its name, whatever the case of its letters. -/
def choose {α : Type} (all : List α) (name : α → String) (text : String) : Except String α :=
  match all.find? (fun choice => (name choice).toLower = text.toLower) with
  | some choice => .ok choice
  | none => .error ("invalid variant: " ++ text)

/-- Change a setting to the value of its variable, or say what is wrong with the value. -/
def Setting.ofVariable (setting : Setting) (settings : Settings) (value : String) :
    Except String Settings :=
  match setting with
  | .bind =>
    match SocketAddress.read? (Text.trimmed value) with
    | some address => .ok { settings with bind := address }
    | none => .error "invalid socket address syntax"
  | .renderer =>
    (choose RendererChoice.all RendererChoice.name (Text.trimmed value)).map fun choice =>
      { settings with renderer := choice }
  | .imageFormat =>
    (choose ImageFormat.all ImageFormat.name (Text.trimmed value)).map fun format =>
      { settings with imageFormat := format }
  | .graphvizCommand => .ok { settings with graphvizCommand := value }
  | .staticDirectory => .ok { settings with staticDirectory := some value }
  | setting =>
    match Text.readNumeral Text.wordLimit (Text.trimmed value) with
    | .ok size => .ok ((setting.withSize? settings size).getD settings)
    | .error error => .error error.message

/-- Take settings from the environment. -/
def Settings.ofEnvironment (settings : Settings) (environment : String → Option String) :
    Except SettingsError Settings :=
  Setting.all.foldlM (fun settings setting =>
    match environment setting.variableName with
    | none => .ok settings
    | some value =>
      (setting.ofVariable settings value).mapError (.badVariable setting value)) settings

/-! ## All layers -/

/-- What the command line says. -/
structure Overrides where
  bind : Option SocketAddress
  renderer : Option RendererChoice
  staticDirectory : Option String

def Settings.override (settings : Settings) (overrides : Overrides) : Settings :=
  { settings with
    bind := overrides.bind.getD settings.bind
    renderer := overrides.renderer.getD settings.renderer
    staticDirectory := overrides.staticDirectory.or settings.staticDirectory }

/-- Refuse limits that are zero. -/
def Settings.validate (settings : Settings) : Except SettingsError Settings :=
  match Setting.all.find? (·.isZero settings) with
  | some setting => .error (.zero setting)
  | none => .ok settings

/-- A file as it was found: its path, and its text if it could be read. -/
structure SettingsFile where
  path : String
  content : Except FileFault String

/-- The settings of all layers. -/
def Settings.load (file : Option SettingsFile) (environment : String → Option String)
    (overrides : Overrides) : Except SettingsError Settings := do
  let settings ← match file with
    | none => .ok builtIn
    | some ⟨path, .error fault⟩ => .error (.unreadable path fault)
    | some ⟨path, .ok text⟩ =>
      match builtIn.ofFile? text with
      | some settings => .ok settings
      | none => .error (.malformed path)
  let settings ← settings.ofEnvironment environment
  (settings.override overrides).validate

end FlowDiagram
