import Stencil.Engine.Load
import Stencil.Engine.Settings
import Stencil.Filter.Builtin
import Stencil.Render.Interpreter
import Stencil.Source.Directory
import Stencil.Source.Shelf

/-!
# Engines

An `Engine` puts the parts together: a source of templates, a cache, filters, tags, and variables that
every render sees. It compiles texts, loads templates by name through its cache, and renders. Each
operation says what its cache becomes and which events took place.
-/

namespace Stencil

structure Engine (κ : Type) where
  reader : SourceReader
  cache : κ
  filters : FilterTable
  tags : TagTable
  globals : Fields
  strict : Bool

/-- The caches that engines have by their settings. -/
abbrev TemplateCache := Option (RecencyCache Template)

/-- The result of a load, the cache that it leaves and its events in order. -/
structure Loaded (κ : Type) where
  result : Except Error Template
  cache : κ
  history : List LoadEvent

/-- The result of rendering a named template: the events of the load come first. -/
structure FileRendered (κ : Type) where
  result : Except Error String
  cache : κ
  loads : List LoadEvent
  history : List Event

namespace Engine

variable {κ : Type}

/-- An engine over a source. Roots and extension of the settings are the reader's business. -/
def new (reader : SourceReader) (settings : Settings) : Engine TemplateCache where
  reader
  cache := settings.cache.build
  filters := .builtin
  tags := .builtin
  globals := settings.globals
  strict := settings.strict

/-- An engine over the directories that its settings name. -/
def overDirectories (fs : FileSystem) (settings : Settings) : Engine TemplateCache :=
  new (Directories.reader ⟨settings.roots, settings.extname⟩ fs) settings

/-- An engine that keeps at most `capacity` templates. -/
def withMemoryCache (reader : SourceReader) (capacity : Nat) : Engine TemplateCache :=
  new reader { cache := .bounded capacity }

/-- The same engine with a cache of the host. -/
def withCache {κ' : Type} (e : Engine κ) (cache : κ') : Engine κ' :=
  ⟨e.reader, cache, e.filters, e.tags, e.globals, e.strict⟩

/-- Registers a filter in place of one of the same name. -/
def registerFilter (e : Engine κ) (name : String) (f : Filter) : Engine κ :=
  { e with filters := e.filters.register name f }

/-- Registers a tag in place of one of the same name. -/
def registerTag (e : Engine κ) (name : String) (t : CustomTag) : Engine κ :=
  { e with tags := e.tags.register name (.custom t) }

/-- Compiles a text; the cache has no part in it. -/
def parse (e : Engine κ) (text : String) : Except Error Template := Template.parse e.tags text

/-- The variables of a render: data must be an object, or nil for none. -/
def context (e : Engine κ) : Value → Except Error Context
  | .object fields => .ok { bottom := fields, globals := e.globals, strict := e.strict }
  | .null => .ok { bottom := [], globals := e.globals, strict := e.strict }
  | v => .error (.invalidOption ("render data must be an object, got " ++ v.json))

def interpreter (e : Engine κ) (mode : Mode) : Interpreter := ⟨e.filters, mode⟩

/-- Renders a compiled template; the events are in order. -/
def render (e : Engine κ) (mode : Mode) (t : Template) (data : Value) :
    Except Error String × List Event :=
  match e.context data with
  | .error err => (.error err, [])
  | .ok ctx =>
    let r := t.render (e.interpreter mode) ctx
    (r.result, r.history)

/-- Who can wait learns of faults in the data before a template is compiled or loaded, others after
it. -/
def checkEarly (e : Engine κ) (mode : Mode) (data : Value) : Except Error Unit :=
  match mode with
  | .sync => .ok ()
  | .async => (e.context data).map fun _ => ()

/-- Compiles and renders a text. -/
def renderText (e : Engine κ) (mode : Mode) (text : String) (data : Value) :
    Except Error String × List Event :=
  match (do e.checkEarly mode data; e.parse text : Except Error Template) with
  | .error err => (.error err, [])
  | .ok t => e.render mode t data

variable [KeyedCache κ Template]

def loader (e : Engine κ) (mode : Mode) (name : String) : Loader where
  name
  read := match mode with
    | .sync => e.reader.read
    | .async => e.reader.readLater
  tags := e.tags

/-- Loads the template of a name through the cache. -/
def load (e : Engine κ) (mode : Mode) (name : String) : Loaded κ :=
  match (e.loader mode name).run (e.reader.candidates name) ⟨e.cache, []⟩ with
  | (result, s) => ⟨result, s.cache, s.history.reverse⟩

/-- Loads and renders the template of a name. -/
def renderFile (e : Engine κ) (mode : Mode) (name : String) (data : Value) : FileRendered κ :=
  match e.checkEarly mode data with
  | .error err => ⟨.error err, e.cache, [], []⟩
  | .ok () =>
    let loaded := e.load mode name
    match loaded.result with
    | .error err => ⟨.error err, loaded.cache, loaded.history, []⟩
    | .ok t =>
      let (result, history) := e.render mode t data
      ⟨result, loaded.cache, loaded.history, history⟩

end Engine

end Stencil
