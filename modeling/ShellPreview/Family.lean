import ShellPreview.Analysis
import ShellPreview.Command
import ShellPreview.Fetch
import ShellPreview.Link
import ShellPreview.Registry
/-!
# Families of commands

There are seven families. Each one knows its commands by plain tests on
their text and says about a command of its own what can be said. The two
families that go by the tables come first, then those that download, then
two that catch what is left of Python and Node.
-/

namespace ShellPreview

/-- A family of commands. -/
inductive Family
  | packageManager
  | programmingTool
  | powerShell
  | curl
  | wget
  | pythonInline
  | npm
deriving DecidableEq

namespace Family

/-- The families, in the order in which they are tried. -/
def all : List Family :=
  [.packageManager, .programmingTool, .powerShell, .curl, .wget, .pythonInline, .npm]

/-- The name of a family. -/
def name : Family → String
  | .packageManager => "package-manager"
  | .programmingTool => "programming-tool"
  | .powerShell => "powershell"
  | .curl => "curl"
  | .wget => "wget"
  | .pythonInline => "python-inline"
  | .npm => "npm"

/-- The family with a name. -/
def ofName? (s : String) : Option Family :=
  all.find? fun f => f.name == s

/-- A caution, if a condition holds. -/
def cautionIf (condition : Bool) (c : Caution) : List Caution :=
  if condition then [c] else []

/-- Whether a command installs a package for all users. -/
def isGlobalInstall (command : String) : Bool :=
  Text.holds command "install" && Text.holds command "-g"

/-- What is said of a command of a package manager. -/
def ofManager (m : Installer) (command : String) : Analysis :=
  let a := Analysis.new (m.name ++ " - Package Manager") m.description .bash
  let package := (m.packageName command).map fun name =>
    (⟨name, m.name, "Installing package: " ++ name, m.searchUrl name⟩ : Package)
  { a with code := some command, package := package }.warn
    (cautionIf (Text.holds command "install" || Text.holds command "add") .installs ++
      cautionIf (isGlobalInstall command) .installsGlobally)

/-- What is said of a command of a programming tool. -/
def ofTool (t : Tool) (command : String) : Analysis :=
  let language := if t.isPython then Language.python else Language.bash
  let a := Analysis.new (t.name ++ " - Programming Tool") t.description language
  if Text.holds command "-c" then
    let cautions := .runsInlineCode ::
      cautionIf (t.isPython && Command.usesNetworkLibrary command) .usesNetwork
    match Command.inlineCode command with
    | some code => { a with code := some code, links := Link.ofDocument code }.warn cautions
    | none => { a with code := some command }.warn cautions
  else { a with code := some command }

/-- What is said of Python code in a command. -/
def ofInlinePython (command : String) : Analysis :=
  let a := Analysis.new "Python - Inline Execution" "Inline Python code execution" .python
  let cautions := cautionIf (Command.usesNetworkLibrary command) .usesNetwork
  match Command.inlineCode command with
  | some code => { a with code := some code, links := Link.ofDocument code }.warn cautions
  | none => a.warn cautions

/-- What is said of a command of Node. -/
def ofNode (kind command : String) : Analysis :=
  (Analysis.new kind "Command to manage or execute Node.js packages" .bash).warn
    (cautionIf (isGlobalInstall command) .installsGlobally)

/-- Adds what a document shows. -/
def withDocument (a : Analysis) (d : Fetch.Document) : Analysis :=
  let a := { a with code := some d.body, links := Link.ofDocument d.body }
  match Payload.cautionOf d.body with
  | some caution =>
    { a with
      language := .text
      payload := some (Payload.ofCaution d.body (some d.resolvedUrl) caution) }.warn [caution]
  | none => { a with language := Language.detect d.body }

/-- Adds what is known when a document cannot be had and its place is
taken by the reason. -/
def withReason (a : Analysis) (f : Fetch.Failure) : Analysis :=
  { a with code := some ("Download error: " ++ f.summary) }.warn [.notDownloaded]

/-- Adds what a download shows, for a tool whose output may go to a
shell. -/
def download (fetcher : Fetch.Fetcher) (a : Analysis) (piped : Caution) (command : String) :
    Fetch.Traced Analysis :=
  match Link.ofCommand command with
  | none => pure a
  | some url => do
    match ← fetcher.fetch url with
    | .ok d => return (withDocument a d).warn (cautionIf (Command.pipesToShell command) piped)
    | .error f => return withReason a f

/-- What is said of a command of curl before anything is downloaded. -/
def curlBase (command : String) : Analysis :=
  let a := Analysis.new "cURL - HTTP Download" "Command to download content from URL" .bash
  let a := if Command.hasFlag command 's' "--silent" then a.setParameter "mode" "silent" else a
  let a :=
    if Command.hasFlag command 'L' "--location" then
      a.setParameter "redirect" "follow redirects"
    else a
  if Command.hasFlag command 'k' "--insecure" then
    (a.setParameter "SSL" "ignore certificates").warn [.ignoresCertificates]
  else a

/-- What is said of a command of wget before anything is downloaded. -/
def wgetBase (command : String) : Analysis :=
  let a := Analysis.new "wget - File Download" "Command to download files from internet" .bash
  if Command.writesToStdout command then a.setParameter "output" "stdout (direct output)" else a

/-- The words with which PowerShell downloads. -/
def webRequestWords : List String :=
  ["iwr", "Invoke-WebRequest", "irm", "Invoke-RestMethod"]

/-- What is said of a download of PowerShell. -/
def powerShellDownload (fetcher : Fetch.Fetcher) (command : String) : Fetch.Traced Analysis :=
  let a := Analysis.new "PowerShell - Web Request" "PowerShell command to download web content"
    .powerShell
  match Link.ofCommand command with
  | none => pure { a with code := some command }
  | some url => do
    match ← fetcher.fetch url with
    | .ok d =>
      match Payload.cautionOf d.body with
      | some _ => return withDocument a d
      | none => return (withDocument a d).warn (Caution.ofScript d.body).toList
    | .error f =>
      .report .debug ("PowerShell download failed: " ++ f.summary)
      return { a with code := some command }.warn [.notDownloaded, .runsRemoteCode]

/-- Adds what the rest of a command does with a download of PowerShell. -/
def withEvaluation (command : String) (a : Analysis) : Analysis :=
  let a := a.warn (cautionIf
    (Text.holds command "| iex" || Text.holds command "| Invoke-Expression")
    .evaluatesDownloadedCode)
  if Text.holds command "select -ExpandProperty Content" then
    a.setParameter "expansion" "extracts only text content"
  else a

/-- What a family says of a command, if the command belongs to it. -/
def recognize (registry : Registry) (fetcher : Fetch.Fetcher) (command : String) :
    Family → Fetch.Traced (Option Analysis)
  | .packageManager => pure ((registry.managerFor command).map fun m => ofManager m command)
  | .programmingTool => pure ((registry.toolFor command).map fun t => ofTool t command)
  | .powerShell =>
    if webRequestWords.any (Text.holds command) then
      (fun a => some (withEvaluation command a)) <$> powerShellDownload fetcher command
    else pure none
  | .curl =>
    if Text.begins command "curl" then
      some <$> download fetcher (curlBase command) .runsDownloadedCode command
    else pure none
  | .wget =>
    if Text.begins command "wget" then
      some <$> download fetcher (wgetBase command) .runsDownloadedFile command
    else pure none
  | .pythonInline =>
    if Text.holds command "python" && Text.holds command "-c" then
      pure (some (ofInlinePython command))
    else pure none
  | .npm =>
    if Text.begins command "npm " then
      pure (some (ofNode "npm - Node Package Manager" command))
    else if Text.begins command "npx " then
      pure (some (ofNode "npx - Node Package Execute" command))
    else pure none

end Family

end ShellPreview
