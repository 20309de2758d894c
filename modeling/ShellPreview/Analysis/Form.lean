import ShellPreview.Analysis
import ShellPreview.Json.Schema.Text
import ShellPreview.Text.Ordered
/-!
# The JSON form of an analysis

`Analysis.toJson` writes an analysis as an object in which absent things
have no member, and `Analysis.form` says which values are read as one.
`Analysis.parse` and `Analysis.ofJson` read an analysis from a text and
from a value.
-/

namespace ShellPreview

/-- The member for something that may be absent. -/
def Json.ifPresent {α : Type} (key : String) (f : α → Json) : Option α → List (String × Json)
  | none => []
  | some x => [(key, f x)]

/-- A package as an object. -/
def Package.toJson (p : Package) : Json :=
  .object ([("packageName", .text p.name), ("packageManager", .text p.manager),
    ("description", .text p.description)] ++ Json.ifPresent "searchUrl" .text p.searchUrl)

/-- Which values are packages. -/
def Package.form : Json.Schema :=
  .record "struct PackageInfo"
    [("packageName", .required, .text), ("packageManager", .required, .text),
      ("description", .required, .text), ("searchUrl", .optional, .optional .text)]

/-- The package in its normal form. -/
def Package.ofNormal (v : Json) : Package :=
  ⟨(v.field "packageName").asText, (v.field "packageManager").asText,
    (v.field "description").asText, (v.field "searchUrl").orNull Json.asText⟩

/-- What is known about a download, as an object. -/
def Payload.toJson (p : Payload) : Json :=
  .object ([("isBinary", .flag p.isBinary)] ++ Json.ifPresent "mimeType" .text p.mimeType ++
    Json.ifPresent "fileExtension" .text p.extension ++
    Json.ifPresent "fileName" .text p.fileName ++ Json.ifPresent "size" Json.nat p.size ++
    Json.ifPresent "warning" .text p.warning)

/-- Which values say something about a download. -/
def Payload.form : Json.Schema :=
  .record "struct BinaryInfo"
    [("isBinary", .required, .flag), ("mimeType", .optional, .optional .text),
      ("fileExtension", .optional, .optional .text), ("fileName", .optional, .optional .text),
      ("size", .optional, .optional (.natural "u64")), ("warning", .optional, .optional .text)]

/-- What the normal form says about a download. -/
def Payload.ofNormal (v : Json) : Payload :=
  ⟨(v.field "isBinary").asFlag, (v.field "mimeType").orNull Json.asText,
    (v.field "fileExtension").orNull Json.asText, (v.field "fileName").orNull Json.asText,
    (v.field "size").orNull Json.asNat, (v.field "warning").orNull Json.asText⟩

namespace Analysis

/-- An analysis as an object. -/
def toJson (a : Analysis) : Json :=
  .object ([("type", .text a.kind), ("description", .text a.description),
    ("warnings", .list (a.warnings.map .text))] ++
    Json.ifPresent "extractedCode" .text a.code ++
    [("codeLanguage", .text a.language.name), ("urls", .list (a.links.map .text)),
      ("parameters", .object a.parameters)] ++
    Json.ifPresent "packageInfo" Package.toJson a.package ++
    Json.ifPresent "binaryInfo" Payload.toJson a.payload)

/-- Which values are analyses. -/
def form : Json.Schema :=
  .record "struct CommandAnalysis"
    [("type", .required, .text), ("description", .required, .text),
      ("warnings", .required, .list .text), ("extractedCode", .optional, .optional .text),
      ("codeLanguage", .required, .choice (Language.all.map Language.name)),
      ("urls", .required, .list .text), ("parameters", .required, .dictionary),
      ("packageInfo", .optional, .optional Package.form),
      ("binaryInfo", .optional, .optional Payload.form)]

/-- The analysis in its normal form. -/
def ofNormal (v : Json) : Analysis where
  kind := (v.field "type").asText
  description := (v.field "description").asText
  warnings := (v.field "warnings").asList.map Json.asText
  code := (v.field "extractedCode").orNull Json.asText
  language := (Language.ofName? (v.field "codeLanguage").asText).getD .text
  links := Text.Ordered.ofList ((v.field "urls").asList.map Json.asText)
  parameters := (v.field "parameters").asMembers
  package := (v.field "packageInfo").orNull Package.ofNormal
  payload := (v.field "binaryInfo").orNull Payload.ofNormal

/-- The analysis that a text spells. -/
def parse (text : String) : Except Json.Fault Analysis :=
  (form.parse text).map ofNormal

/-- The analysis that a value is. -/
def ofJson (v : Json) : Except Json.Fault Analysis :=
  (form.accept v).map ofNormal

end Analysis

end ShellPreview
