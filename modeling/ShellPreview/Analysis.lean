import ShellPreview.Json.Basic
import ShellPreview.Payload
/-!
# Analyses

What is found out about one command: the family it belongs to, what it is
warned of, the code it would run and the language of that code, links and
parameters, and what package or binary file it would fetch.
-/

namespace ShellPreview

/-- A package that a command would install. -/
structure Package where
  name : String
  manager : String
  description : String
  searchUrl : Option String
deriving DecidableEq

/-- What is found out about a command. The links are a set and the
parameters a map, both in increasing order. -/
structure Analysis where
  kind : String
  description : String
  warnings : List String
  code : Option String
  language : Language
  links : List String
  parameters : List (String × Json)
  package : Option Package
  payload : Option Payload

namespace Analysis

/-- An analysis that says no more than the family of the command. -/
def new (kind description : String) (language : Language) : Analysis :=
  ⟨kind, description, [], none, language, [], [], none, none⟩

/-- The analysis of a command that belongs to no family. -/
def unknown : Analysis :=
  new "Unknown" "Unrecognized command" .text

/-- Whether the command belongs to no family. -/
def isUnknown (a : Analysis) : Bool :=
  a.kind == "Unknown"

/-- Adds cautions behind those that are there. -/
def warn (a : Analysis) (cautions : List Caution) : Analysis :=
  { a with warnings := a.warnings ++ cautions.map Caution.text }

/-- Sets a parameter. -/
def setParameter (a : Analysis) (key value : String) : Analysis :=
  { a with parameters := Json.insertMember key (.text value) a.parameters }

/-! No cautions change nothing, and cautions and parameters leave all else
as it is. -/

section Fields

variable (a : Analysis) (cautions : List Caution) (key value : String)

@[simp] theorem warn_nil : a.warn [] = a := by
  simp [warn]

@[simp] theorem kind_warn : (a.warn cautions).kind = a.kind := rfl

@[simp] theorem description_warn : (a.warn cautions).description = a.description := rfl

@[simp] theorem code_warn : (a.warn cautions).code = a.code := rfl

@[simp] theorem language_warn : (a.warn cautions).language = a.language := rfl

@[simp] theorem links_warn : (a.warn cautions).links = a.links := rfl

@[simp] theorem parameters_warn : (a.warn cautions).parameters = a.parameters := rfl

@[simp] theorem package_warn : (a.warn cautions).package = a.package := rfl

@[simp] theorem payload_warn : (a.warn cautions).payload = a.payload := rfl

@[simp] theorem kind_setParameter : (a.setParameter key value).kind = a.kind := rfl

@[simp] theorem description_setParameter :
    (a.setParameter key value).description = a.description := rfl

@[simp] theorem warnings_setParameter : (a.setParameter key value).warnings = a.warnings := rfl

@[simp] theorem code_setParameter : (a.setParameter key value).code = a.code := rfl

@[simp] theorem language_setParameter : (a.setParameter key value).language = a.language := rfl

@[simp] theorem links_setParameter : (a.setParameter key value).links = a.links := rfl

@[simp] theorem package_setParameter : (a.setParameter key value).package = a.package := rfl

@[simp] theorem payload_setParameter : (a.setParameter key value).payload = a.payload := rfl

end Fields

end Analysis

end ShellPreview
