/-!
# What happens on the way to a result

Fetching asks the network and reports on what it does. `Traced` keeps,
beside the result, the requests in the order in which they were made and
the reports in the order in which they were given. It is a value like any
other: nothing is asked or printed here.
-/

namespace ShellPreview.Fetch

/-- A request to the network. -/
inductive Call
  /-- Follow redirections from a URL. -/
  | resolve (url : String)
  /-- Download from a URL. -/
  | get (url : String)
deriving DecidableEq

/-- How important a report is. -/
inductive Level
  | debug
  | info
  | warn
deriving DecidableEq

/-- The word for a level. -/
def Level.word : Level → String
  | .debug => "DEBUG"
  | .info => "INFO"
  | .warn => "WARN"

/-- A report. -/
structure Event where
  level : Level
  message : String
deriving DecidableEq

/-- A result, and the requests and reports on the way to it. -/
structure Traced (α : Type) where
  value : α
  calls : List Call
  events : List Event

namespace Traced

/-- A result on the way to which nothing happens. -/
def quiet {α : Type} (x : α) : Traced α := ⟨x, [], []⟩

/-- What comes of a result, with what happened before in front. -/
def bind {α β : Type} (x : Traced α) (f : α → Traced β) : Traced β :=
  let y := f x.value
  ⟨y.value, x.calls ++ y.calls, x.events ++ y.events⟩

instance : Monad Traced where
  pure := quiet
  bind := bind

/-- Gives a report. -/
def report (level : Level) (message : String) : Traced Unit :=
  ⟨(), [], [⟨level, message⟩]⟩

/-- Makes a request. -/
def request (call : Call) : Traced Unit :=
  ⟨(), [call], []⟩

@[simp] theorem value_pure {α : Type} (x : α) : (pure x : Traced α).value = x := rfl

@[simp] theorem calls_pure {α : Type} (x : α) : (pure x : Traced α).calls = [] := rfl

@[simp] theorem value_bind {α β : Type} (x : Traced α) (f : α → Traced β) :
    (x >>= f).value = (f x.value).value := rfl

@[simp] theorem calls_bind {α β : Type} (x : Traced α) (f : α → Traced β) :
    (x >>= f).calls = x.calls ++ (f x.value).calls := rfl

@[simp] theorem value_map {α β : Type} (f : α → β) (x : Traced α) :
    (f <$> x).value = f x.value := rfl

@[simp] theorem calls_map {α β : Type} (f : α → β) (x : Traced α) :
    (f <$> x).calls = x.calls := List.append_nil _

@[simp] theorem value_report (level : Level) (message : String) :
    (report level message).value = () := rfl

@[simp] theorem calls_report (level : Level) (message : String) :
    (report level message).calls = [] := rfl

@[simp] theorem calls_request (call : Call) : (request call).calls = [call] := rfl

end Traced

end ShellPreview.Fetch
