import ShellPreview.Fetch.Settings
import ShellPreview.Fetch.Trace
import ShellPreview.Text.Blank
/-!
# Fetching a document

`Fetcher.fetch` finds out where a URL leads, once, and then tries the ways
to a document in order until one of them gives a document that is long
enough. The network is a function from requests to answers, each with the
time it takes; an answer that takes longer than it may counts as none.
-/

namespace ShellPreview.Fetch

/-- An answer of the network, and after how many nanoseconds it comes; it
may never come. -/
structure Answer where
  reply : Except Error String
  delay : Option Nat

/-- The network. -/
structure Transport where
  /-- Where a URL leads. -/
  resolve : String → Answer
  /-- What is downloaded from a URL. -/
  get : String → Answer

/-- The network when it must not be used. -/
def Transport.offline : Transport :=
  ⟨fun _ => ⟨.error .offline, some 0⟩, fun _ => ⟨.error .offline, some 0⟩⟩

/-- What is needed to fetch: the network, the settings, and how long an
answer may take. -/
structure Fetcher where
  transport : Transport
  settings : Settings
  timeout : Nat

/-- A document and where it is from. -/
structure Document where
  requestedUrl : String
  resolvedUrl : String
  route : String
  body : String
deriving DecidableEq

namespace Fetcher

/-- An answer, if it comes in time. -/
def inTime (f : Fetcher) (a : Answer) : Except Error String :=
  match a.delay with
  | none => .error (.timeout f.timeout)
  | some ns => if f.timeout < ns then .error (.timeout f.timeout) else a.reply

/-- A document that may be shown: not blank, and long enough. -/
def accept (f : Fetcher) (content : String) : Except Error String :=
  if Text.isBlankText content.toList then .error .empty
  else if content.length ≤ f.settings.leastLength then
    .error (.tooShort content.length f.settings.leastLength)
  else .ok content

/-- What comes of an answer to a way. -/
def judge (f : Fetcher) (route : Route) (a : Answer) : Except Error String :=
  match f.inTime a with
  | .error e => .error e
  | .ok body =>
    match route.unwrap body with
    | .error e => .error e
    | .ok content => f.accept content

/-- Finds out where a URL leads. A shortcut needs no request; if there is
no answer, the URL is taken to lead nowhere else. -/
def resolve (f : Fetcher) (url : String) : Traced String :=
  match f.settings.shortcutFor url with
  | some shortcut => do
    .report .info ("Known redirect: " ++ url ++ " -> " ++ shortcut.finalUrl)
    return shortcut.finalUrl
  | none => do
    .request (.resolve url)
    match f.inTime (f.transport.resolve url) with
    | .ok final =>
      if final = url then return url
      else
        .report .info ("Redirect detected: " ++ url ++ " -> " ++ final)
        return final
    | .error e =>
      .report .debug
        ("Redirect probe failed for " ++ url ++ ", using original URL: " ++ e.message)
      return url

/-- The report that a way is tried, by its number. -/
def tryingText (number all : Nat) (route : Route) (url : String) : String :=
  "Fetch attempt " ++ Nat.repr number ++ "/" ++ Nat.repr all ++ " via " ++ route.name ++ ": " ++ url

/-- Tries ways in order. `failed` are those that failed before, the last
last. -/
def tryRoutes (f : Fetcher) (url resolved : String) (all : Nat) (failed : List Attempt) :
    List Route → Traced (Except Failure Document)
  | [] => do
    .report .warn ("All fetch routes failed for " ++ resolved)
    return .error ⟨url, resolved, failed⟩
  | route :: routes => do
    let target := route.requestUrl resolved
    .report .debug (tryingText (failed.length + 1) all route target)
    .request (.get target)
    match f.judge route (f.transport.get target) with
    | .ok body =>
      .report .info ("Fetched " ++ Nat.repr body.length ++ " chars from " ++ resolved ++ " via " ++
        route.name)
      return .ok ⟨url, resolved, route.name, body⟩
    | .error e =>
      .report .warn ("Route " ++ route.name ++ " failed for " ++ resolved ++ ": " ++ e.message)
      tryRoutes f url resolved all (failed ++ [⟨route.name, e⟩]) routes

/-- Fetches a document. -/
def fetch (f : Fetcher) (url : String) : Traced (Except Failure Document) := do
  let resolved ← f.resolve url
  f.tryRoutes url resolved f.settings.routes.length [] f.settings.routes

end Fetcher

end ShellPreview.Fetch
