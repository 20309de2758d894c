import ShellPreview.Registry
import ShellPreview.Json.Schema.Text
/-!
# The JSON form of the tables

How entries of the two tables are written as objects, and which values are
read as entries.
-/

namespace ShellPreview

namespace Manager

/-- An entry as an object. -/
def toJson (m : Manager) : Json :=
  .object [("prefix", .text m.token), ("name", .text m.name), ("description", .text m.description),
    ("searchUrlTemplate", .text m.searchTemplate), ("installPattern", .text m.installPattern)]

/-- Which values are entries. -/
def form : Json.Schema :=
  .record "struct PackageManagerEntry"
    [("prefix", .required, .text), ("name", .required, .text), ("description", .required, .text),
      ("searchUrlTemplate", .fallback (.text ""), .text), ("installPattern", .required, .text)]

/-- The entry in its normal form. -/
def ofNormal (v : Json) : Manager :=
  ⟨(v.field "prefix").asText, (v.field "name").asText, (v.field "description").asText,
    (v.field "searchUrlTemplate").asText, (v.field "installPattern").asText⟩

/-- The entry that a value is. -/
def ofJson (v : Json) : Except Json.Fault Manager :=
  (form.accept v).map ofNormal

end Manager

namespace Tool

/-- An entry as an object. -/
def toJson (t : Tool) : Json :=
  .object [("token", .text t.token), ("name", .text t.name), ("description", .text t.description)]

/-- Which values are entries. -/
def form : Json.Schema :=
  .record "struct ProgrammingToolEntry"
    [("token", .required, .text), ("name", .required, .text), ("description", .required, .text)]

/-- The entry in its normal form. -/
def ofNormal (v : Json) : Tool :=
  ⟨(v.field "token").asText, (v.field "name").asText, (v.field "description").asText⟩

end Tool

end ShellPreview
