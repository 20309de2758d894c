import ShellPreview.Fetch.Form
import ShellPreview.Registry.Default
import ShellPreview.Registry.Form
/-!
# The configuration

The two tables and the settings for fetching. A configuration is kept as a
JSON object on lines of its own; what the object leaves out has its
built-in value, part by part, so that an object may say only what is to be
different.
-/

namespace ShellPreview

/-- The tables and the settings. -/
structure Configuration where
  managers : List Manager
  tools : List Tool
  fetch : Fetch.Settings
deriving DecidableEq

namespace Configuration

/-- The built-in configuration. -/
protected def default : Configuration :=
  ⟨Registry.defaultManagers, Registry.defaultTools, .default⟩

/-- A configuration as an object. -/
def toJson (c : Configuration) : Json :=
  .object [("packageManagers", .list (c.managers.map Manager.toJson)),
    ("programmingTools", .list (c.tools.map Tool.toJson)), ("fetch", c.fetch.toJson)]

/-- Which values are configurations. -/
def form : Json.Schema :=
  let d := Configuration.default
  .record "struct AppConfig"
    [("packageManagers", .fallback (.list (d.managers.map Manager.toJson)), .list Manager.form),
      ("programmingTools", .fallback (.list (d.tools.map Tool.toJson)), .list Tool.form),
      ("fetch", .fallback d.fetch.toJson, Fetch.Settings.form)]

/-- The configuration in its normal form. -/
def ofNormal (v : Json) : Configuration :=
  ⟨(v.field "packageManagers").asList.map Manager.ofNormal,
    (v.field "programmingTools").asList.map Tool.ofNormal,
    Fetch.Settings.ofNormal (v.field "fetch")⟩

/-- The text in which a configuration is kept. -/
def text (c : Configuration) : String :=
  c.toJson.pretty

/-- The configuration that a text spells. -/
def parse (text : String) : Except Json.Fault Configuration :=
  (form.parse text).map ofNormal

/-- The configuration that a value is. -/
def ofJson (v : Json) : Except Json.Fault Configuration :=
  (form.accept v).map ofNormal

/-- The tables, with their patterns read. -/
def registry (c : Configuration) : Except BadPattern Registry :=
  Registry.compile c.managers c.tools

end Configuration

end ShellPreview
