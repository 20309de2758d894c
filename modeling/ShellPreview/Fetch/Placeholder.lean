import ShellPreview.Fetch.Settings
/-!
# What is shown in place of a document

When a document cannot be had, a text in remarks takes its place: what was
asked for, why it cannot be shown, and what the command would have done
with it. For a URL with a shortcut the text tells what is known about the
document.
-/

namespace ShellPreview.Fetch

/-- The lines for a document that a shortcut leads to. -/
def shortcutLines (f : Failure) (s : Shortcut) : List String :=
  ["# " ++ s.title, "", "# Original URL: " ++ f.requestedUrl,
    "# Expected to redirect to: " ++ s.finalUrl, "",
    "# WARNING: Unable to download the actual script content"] ++
  (if s.notes.isEmpty then []
    else ["", "# Known details about this script:"] ++ s.notes.map fun note => "# - " ++ note) ++
  ["", "# SECURITY NOTICE:", "# This script makes significant system changes",
    "# Always review scripts before running with 'iex' (Invoke-Expression)", "",
    "Write-Host \"" ++ s.title ++ " - Content not available for preview\""]

/-- The lines for any other document. -/
def generalLines (f : Failure) : List String :=
  ["# Script Download Failed", "# Original URL: " ++ f.requestedUrl] ++
  (if f.resolvedUrl = f.requestedUrl then [] else ["# Resolved URL: " ++ f.resolvedUrl]) ++
  ["", "# Unable to download script content for preview",
    "# This command would download and execute code from the internet"] ++
  (if f.attempts.isEmpty then []
    else ["", "# Attempts:"] ++ f.attempts.map fun a => "# - " ++ a.text) ++
  ["", "# The command structure:", "# irm \"" ++ f.requestedUrl ++ "\" | iex", "#",
    "# - irm (Invoke-RestMethod) downloads the content",
    "# - | (pipe) passes it to the next command",
    "# - iex (Invoke-Expression) executes the downloaded code", "", "# SECURITY WARNING:",
    "# Only run this command if you completely trust the source",
    "# Consider downloading and reviewing the script manually first", "",
    "Write-Host \"Script content not available for preview - download failed\""]

/-- What is shown in place of a document. -/
def Failure.placeholder (f : Failure) (settings : Settings) : String :=
  String.intercalate "\n"
    (match settings.shortcutFor f.requestedUrl with
    | some shortcut => shortcutLines f shortcut
    | none => generalLines f)

end ShellPreview.Fetch
