import ShellPreview.Fetch.Settings
import ShellPreview.Json.Schema.Text
/-!
# The JSON form of settings for fetching

How settings, the ways to a document and shortcuts are written as objects,
and which values are read as them. A way names its kind; settings that are
left out have their built-in values.
-/

namespace ShellPreview.Fetch

namespace Route

/-- A way as an object. -/
def toJson : Route → Json
  | relay name base format encodeTarget =>
    .object [("kind", .text "relay"), ("name", .text name), ("prefix", .text base),
      ("format", .text format.name), ("encodeTarget", .flag encodeTarget)]
  | direct => .object [("kind", .text "direct")]

/-- Which values are ways. -/
def form : Json.Schema :=
  .tagged "internally tagged enum FetchRoute" "kind"
    [("relay", some ("struct variant FetchRoute::Relay",
        [("name", .required, .text), ("prefix", .required, .text),
          ("format", .required, .choice (RelayFormat.all.map RelayFormat.name)),
          ("encodeTarget", .fallback (.flag false), .flag)])),
      ("direct", none)]

/-- The way in its normal form. -/
def ofNormal (v : Json) : Route :=
  if (v.field "kind").asText = "relay" then
    relay (v.field "name").asText (v.field "prefix").asText
      ((RelayFormat.ofName? (v.field "format").asText).getD .raw) (v.field "encodeTarget").asFlag
  else direct

/-- The way that a value is. -/
def ofJson (v : Json) : Except Json.Fault Route :=
  (form.accept v).map ofNormal

end Route

namespace Shortcut

/-- A shortcut as an object. -/
def toJson (s : Shortcut) : Json :=
  .object [("matches", .text s.marker), ("finalUrl", .text s.finalUrl), ("title", .text s.title),
    ("notes", .list (s.notes.map .text))]

/-- Which values are shortcuts. -/
def form : Json.Schema :=
  .record "struct RedirectShortcut"
    [("matches", .required, .text), ("finalUrl", .required, .text), ("title", .required, .text),
      ("notes", .fallback (.list []), .list .text)]

/-- The shortcut in its normal form. -/
def ofNormal (v : Json) : Shortcut :=
  ⟨(v.field "matches").asText, (v.field "finalUrl").asText, (v.field "title").asText,
    (v.field "notes").asList.map Json.asText⟩

end Shortcut

namespace Settings

/-- Settings as an object. -/
def toJson (s : Settings) : Json :=
  .object [("attemptTimeoutSecs", .nat s.timeoutSeconds), ("minContentLength", .nat s.leastLength),
    ("routes", .list (s.routes.map Route.toJson)),
    ("redirectShortcuts", .list (s.shortcuts.map Shortcut.toJson))]

/-- Which values are settings. -/
def form : Json.Schema :=
  let d := Settings.default
  .record "struct FetchSettings"
    [("attemptTimeoutSecs", .fallback (.nat d.timeoutSeconds), .natural "u64"),
      ("minContentLength", .fallback (.nat d.leastLength), .natural "usize"),
      ("routes", .fallback (.list (d.routes.map Route.toJson)), .list Route.form),
      ("redirectShortcuts", .fallback (.list (d.shortcuts.map Shortcut.toJson)),
        .list Shortcut.form)]

/-- The settings in their normal form. -/
def ofNormal (v : Json) : Settings :=
  ⟨(v.field "attemptTimeoutSecs").asNat, (v.field "minContentLength").asNat,
    (v.field "routes").asList.map Route.ofNormal,
    (v.field "redirectShortcuts").asList.map Shortcut.ofNormal⟩

end Settings

end ShellPreview.Fetch
