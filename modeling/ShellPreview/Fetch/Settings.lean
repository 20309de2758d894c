import ShellPreview.Fetch.Route
import ShellPreview.Text.Search
/-!
# Settings for fetching

Which ways to a document are tried, how long each may take and how long a
document must be. A shortcut stands for a redirection that is known
without asking.
-/

namespace ShellPreview.Fetch

/-- A redirection that is known: of all URLs that hold a text. -/
structure Shortcut where
  marker : String
  finalUrl : String
  title : String
  notes : List String
deriving DecidableEq

/-- Settings for fetching. -/
structure Settings where
  timeoutSeconds : Nat
  /-- A document must have more characters than this. -/
  leastLength : Nat
  routes : List Route
  shortcuts : List Shortcut
deriving DecidableEq

namespace Settings

/-- The shortcut for a URL. One without a text is for no URL. -/
def shortcutFor (s : Settings) (url : String) : Option Shortcut :=
  s.shortcuts.find? fun c => !c.marker.isEmpty && Text.holds url c.marker

/-- How long each way may take, in nanoseconds. -/
def timeout (s : Settings) : Nat :=
  s.timeoutSeconds * 1000000000

/-- The built-in settings. -/
protected def default : Settings where
  timeoutSeconds := 15
  leastLength := 100
  routes :=
    [.relay "corsproxy" "https://corsproxy.io/?" .raw false,
      .relay "allorigins" "https://api.allorigins.win/get?url=" .jsonContents true,
      .relay "cors-anywhere" "https://cors-anywhere.herokuapp.com/" .raw false,
      .direct]
  shortcuts :=
    [⟨"christitus.com/win",
      "https://github.com/ChrisTitusTech/winutil/releases/latest/download/winutil.ps1",
      "ChrisTitus Windows Utility Script",
      ["This script typically contains PowerShell commands for Windows optimization",
        "Windows debloating tools", "System optimization settings",
        "Software installation utilities", "Registry modifications"]⟩]

end Settings

end ShellPreview.Fetch
