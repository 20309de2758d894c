import ShellPreview.Family
import ShellPreview.Safety
/-!
# Classifying a command

The families are tried in order and the first one that knows the command
has its say; a command that no family knows is unknown. The cautions for
any command come last. Blanks around a command do not count.
-/

namespace ShellPreview

/-- What is needed to classify: the tables, how to fetch, and the families
in the order in which they are tried. -/
structure Classifier where
  registry : Registry
  fetcher : Fetch.Fetcher
  families : List Family

namespace Classifier

/-- A classifier that tries all families. -/
def standard (registry : Registry) (fetcher : Fetch.Fetcher) : Classifier :=
  ⟨registry, fetcher, Family.all⟩

/-- The first of the families that knows the command, and what it says. -/
def firstOf (c : Classifier) (command : String) :
    List Family → Fetch.Traced (Option (Family × Analysis))
  | [] => pure none
  | f :: fs => do
    match ← f.recognize c.registry c.fetcher command with
    | some a => return some (f, a)
    | none => c.firstOf command fs

/-- What is said of a command before the cautions for any command. -/
def classifyTrimmed (c : Classifier) (command : String) : Fetch.Traced Analysis := do
  match ← c.firstOf command c.families with
  | some (family, a) =>
    .report .debug ("Matched detector " ++ family.name ++ ": " ++ a.kind)
    return a
  | none =>
    .report .debug "No detector matched, falling back to Unknown"
    return .unknown

/-- Finds out about a command. -/
def classify (c : Classifier) (command : String) : Fetch.Traced Analysis :=
  let command := Text.trimmed command
  (fun a => a.warn (Safety.cautions command)) <$> c.classifyTrimmed command

end Classifier

end ShellPreview
