import ShellPreview.Analysis.Form
import ShellPreview.Fetch.Placeholder
import ShellPreview.Fetch
import ShellPreview.Registry
import ShellPreview.Report.Grid
import ShellPreview.Report.Line
import ShellPreview.Report.Size
/-!
# Reports

What is printed about an analysis, a download and the tables. A report for
programs is a JSON value on lines of its own, the tables as grids apart.
-/

namespace ShellPreview.Report

/-- A parameter as it is shown: a text as it is, any other value as JSON. -/
def parameterText : Json → String
  | .text s => s
  | v => v.compact

/-- The row of something that may be absent. -/
def rowIfPresent {α : Type} (key : String) (f : α → String) : Option α → List (String × String)
  | none => []
  | some x => [(key, f x)]

/-- The rows about a package. -/
def packageRows (p : Package) : List (String × String) :=
  [("Name", p.name), ("Manager", p.manager), ("About", p.description)] ++
    rowIfPresent "Search" id p.searchUrl

/-- The rows about a binary file. -/
def payloadRows (p : Payload) : List (String × String) :=
  rowIfPresent "File" id p.fileName ++ rowIfPresent "Extension" id p.extension ++
    rowIfPresent "MIME type" id p.mimeType ++ rowIfPresent "Size" sizeText p.size

/-- Lines under a title, if there is something to show. -/
def sectionIf (condition : Bool) (title : String) (lines : List Line) : List Line :=
  if condition then titled title ++ lines else []

/-- The lines about an analysis. -/
def analysisLines (a : Analysis) : List Line :=
  titled a.kind ++ [.plain a.description] ++
    (if a.isUnknown then
      [.plain "No known command family matched; only generic checks were applied"]
    else []) ++
    sectionIf (!a.warnings.isEmpty) "Warnings" (a.warnings.map .warning) ++
    sectionIf (!a.parameters.isEmpty) "Parameters"
      (tableLines (a.parameters.map fun p => (p.1, parameterText p.2))) ++
    (match a.package with
    | some p => titled "Package" ++ tableLines (packageRows p)
    | none => []) ++
    (match a.payload with
    | some p => titled "Binary Download" ++ tableLines (payloadRows p)
    | none => []) ++
    sectionIf (!a.links.isEmpty) "URLs" (a.links.map .plain) ++
    (match a.code with
    | some code => titled "Code" ++ codeLines a.language.name code
    | none => [])

/-- The report on an analysis. -/
def ofAnalysis (style : Style) (a : Analysis) : String :=
  match style.mode with
  | .json => print style [.whole a.toJson.pretty]
  | _ => print style (analysisLines a)

/-- The package managers as a grid. -/
def managerGrid (r : Registry) : String :=
  grid ["Prefix", "Name", "Search URL", "Description"]
    (r.managers.map fun m => [m.token, m.name, m.searchTemplate, m.description])

/-- The programming tools as a grid. -/
def toolGrid (r : Registry) : String :=
  grid ["Token", "Name", "Description"] (r.tools.map fun t => [t.token, t.name, t.description])

/-- The report on the tables. -/
def ofRegistry (style : Style) (r : Registry) : String :=
  print style (titled "Package Managers" ++ [.whole (managerGrid r)] ++
    titled "Programming Tools" ++ [.whole (toolGrid r)])

/-- The report on a download that succeeded. -/
def ofDocument (style : Style) (d : Fetch.Document) : String :=
  match style.mode with
  | .json =>
    print style [.whole (Json.object [("requestedUrl", .text d.requestedUrl),
      ("resolvedUrl", .text d.resolvedUrl), ("route", .text d.route),
      ("content", .text d.body)]).sorted.pretty]
  | _ =>
    print style (titled d.resolvedUrl ++ [.success ("Retrieved via " ++ d.route)] ++
      codeLines (Language.detect d.body).name d.body)

/-- The report on a download that failed. -/
def ofFailure (style : Style) (settings : Fetch.Settings) (f : Fetch.Failure) : String :=
  match style.mode with
  | .json =>
    print style [.whole (Json.object [("requestedUrl", .text f.requestedUrl),
      ("resolvedUrl", .text f.resolvedUrl), ("error", .text f.summary),
      ("placeholder", .text (f.placeholder settings))]).sorted.pretty]
  | _ =>
    print style (titled f.requestedUrl ++ [.warning f.summary] ++
      codeLines "powershell" (f.placeholder settings))

end ShellPreview.Report
