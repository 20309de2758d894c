import ShellPreview.Fetch
/-!
# Fetching — what one attempt comes to

When an answer counts, what a way gets out of it and why an attempt
fails, each said by itself and not as a procedure. The procedures come to
exactly these: every attempt succeeds or fails (`succeeds_or_fails`), and
is judged so (`judge_of_succeeds`, `judge_of_failsFor`); every URL leads
somewhere (`exists_leadsTo`), and is resolved so (`resolve_of_leadsTo`).
-/

namespace ShellPreview.Fetch

/-- A shortcut is for the URLs that have its text as a part, unless the
text is empty. -/
def Shortcut.IsFor (s : Shortcut) (url : String) : Prop :=
  s.marker ≠ "" ∧ s.marker.toList <:+: url.toList

/-- An answer comes no later than after some time. -/
def Answer.ComesWithin (a : Answer) (time : Nat) : Prop :=
  ∃ ns, a.delay = some ns ∧ ns ≤ time

/-- What a way takes for the document in an answer: a relay may wrap it
as the text `contents` of a JSON object. -/
def Route.Carries : Route → String → String → Prop
  | .relay _ _ .jsonContents _, answer, document =>
    ∃ v, Json.parse answer = .ok v ∧ v.get? "contents" = some (.text document)
  | _, answer, document => document = answer

namespace Fetcher

/-- Where a URL leads, and the requests that are made to find it out. -/
inductive LeadsTo (f : Fetcher) (url : String) : String → List Call → Prop
  /-- The first shortcut for the URL says so. -/
  | shortcut {front back : List Shortcut} {s : Shortcut}
      (hs : f.settings.shortcuts = front ++ s :: back) (hfor : s.IsFor url)
      (hfirst : ∀ t ∈ front, ¬ t.IsFor url) : LeadsTo f url s.finalUrl []
  /-- There is no shortcut, and the network says so in time. -/
  | answer {final : String} (hs : ∀ s ∈ f.settings.shortcuts, ¬ s.IsFor url)
      (hin : (f.transport.resolve url).ComesWithin f.timeout)
      (hr : (f.transport.resolve url).reply = .ok final) : LeadsTo f url final [.resolve url]
  /-- There is no shortcut, and the network does not say so in time. -/
  | unanswered (hs : ∀ s ∈ f.settings.shortcuts, ¬ s.IsFor url)
      (hno : ¬ ∃ final, (f.transport.resolve url).ComesWithin f.timeout ∧
        (f.transport.resolve url).reply = .ok final) : LeadsTo f url url [.resolve url]

/-- What the network says to a way. -/
def answerTo (f : Fetcher) (resolved : String) (route : Route) : Answer :=
  f.transport.get (route.requestUrl resolved)

/-- A way gives a document: the answer comes in time and carries one that
is not blank and longer than it must be. -/
structure Succeeds (f : Fetcher) (resolved : String) (route : Route) (body : String) : Prop where
  inTime : (f.answerTo resolved route).ComesWithin f.timeout
  carried : ∃ answer, (f.answerTo resolved route).reply = .ok answer ∧ route.Carries answer body
  notBlank : ∃ c ∈ body.toList, Text.isBlank c = false
  long : f.settings.leastLength < body.length

/-- Why a way gives no document; the first reason counts. -/
inductive FailsFor (f : Fetcher) (resolved : String) (route : Route) : Error → Prop
  | late (hlate : ¬ (f.answerTo resolved route).ComesWithin f.timeout) :
      FailsFor f resolved route (.timeout f.timeout)
  | refused {e : Error} (hin : (f.answerTo resolved route).ComesWithin f.timeout)
      (hr : (f.answerTo resolved route).reply = .error e) : FailsFor f resolved route e
  | unreadable {answer : String} {e : Error}
      (hin : (f.answerTo resolved route).ComesWithin f.timeout)
      (hr : (f.answerTo resolved route).reply = .ok answer)
      (hu : route.unwrap answer = .error e) : FailsFor f resolved route e
  | blank {answer body : String} (hin : (f.answerTo resolved route).ComesWithin f.timeout)
      (hr : (f.answerTo resolved route).reply = .ok answer) (hc : route.Carries answer body)
      (hb : ∀ c ∈ body.toList, Text.isBlank c = true) : FailsFor f resolved route .empty
  | short {answer body : String} (hin : (f.answerTo resolved route).ComesWithin f.timeout)
      (hr : (f.answerTo resolved route).reply = .ok answer) (hc : route.Carries answer body)
      (hb : ∃ c ∈ body.toList, Text.isBlank c = false)
      (hl : body.length ≤ f.settings.leastLength) :
      FailsFor f resolved route (.tooShort body.length f.settings.leastLength)

end Fetcher

/-! ## The steps of an attempt -/

/-- Unwrapping gives the document that the answer carries. -/
theorem Route.unwrap_eq_ok_iff {route : Route} {answer body : String} :
    route.unwrap answer = .ok body ↔ route.Carries answer body := by
  rcases route with ⟨name, base, - | -, encodeTarget⟩ | -
  · simp [unwrap, Carries, eq_comm]
  · simp only [unwrap, contentsOf, Carries]
    rcases hp : Json.parse answer with fault | v
    · simp
    · rcases hg : v.get? "contents" with - | w
      · simp [hg]
      · cases w <;> simp [hg]
  · simp [unwrap, Carries, eq_comm]

namespace Fetcher

variable {f : Fetcher} {a : Answer}

theorem inTime_eq_reply (h : a.ComesWithin f.timeout) : f.inTime a = a.reply := by
  obtain ⟨ns, hd, hle⟩ := h
  simp [inTime, hd, Nat.not_lt.mpr hle]

theorem inTime_eq_timeout (h : ¬ a.ComesWithin f.timeout) :
    f.inTime a = .error (.timeout f.timeout) := by
  rcases hd : a.delay with - | ns
  · simp [inTime, hd]
  · have hlt : f.timeout < ns := Nat.not_le.mp fun hle => h ⟨ns, hd, hle⟩
    simp [inTime, hd, hlt]

theorem isBlankText_eq_false_iff {cs : List Char} :
    Text.isBlankText cs = false ↔ ∃ c ∈ cs, Text.isBlank c = false := by
  simp [Text.isBlankText]

theorem accept_of_blank {content : String} (h : ∀ c ∈ content.toList, Text.isBlank c = true) :
    f.accept content = .error .empty := by
  have hb : Text.isBlankText content.toList = true := List.all_eq_true.mpr h
  rw [accept, if_pos hb]

theorem accept_of_short {content : String} (h : ∃ c ∈ content.toList, Text.isBlank c = false)
    (hl : content.length ≤ f.settings.leastLength) :
    f.accept content = .error (.tooShort content.length f.settings.leastLength) := by
  have hb := (isBlankText_eq_false_iff).mpr h
  rw [accept, if_neg (by simp [hb]), if_pos hl]

theorem accept_of_long {content : String} (h : ∃ c ∈ content.toList, Text.isBlank c = false)
    (hl : f.settings.leastLength < content.length) : f.accept content = .ok content := by
  have hb := (isBlankText_eq_false_iff).mpr h
  rw [accept, if_neg (by simp [hb]), if_neg (by omega)]

/-! ## What an attempt comes to -/

variable {resolved body : String} {route : Route} {e : Error}

/-- An answer in time that carries a document is judged by the document. -/
theorem judge_of_carries {answer : String}
    (hin : (f.answerTo resolved route).ComesWithin f.timeout)
    (hr : (f.answerTo resolved route).reply = .ok answer) (hc : route.Carries answer body) :
    f.judge route (f.answerTo resolved route) = f.accept body := by
  have hu : route.unwrap answer = .ok body := (Route.unwrap_eq_ok_iff).mpr hc
  simp only [judge, inTime_eq_reply hin, hr, hu]

theorem judge_of_succeeds (h : f.Succeeds resolved route body) :
    f.judge route (f.answerTo resolved route) = .ok body := by
  obtain ⟨answer, hr, hc⟩ := h.carried
  rw [judge_of_carries h.inTime hr hc, accept_of_long h.notBlank h.long]

theorem judge_of_failsFor (h : f.FailsFor resolved route e) :
    f.judge route (f.answerTo resolved route) = .error e := by
  cases h with
  | late hlate => simp only [judge, inTime_eq_timeout hlate]
  | refused hin hr => simp only [judge, inTime_eq_reply hin, hr]
  | unreadable hin hr hu => simp only [judge, inTime_eq_reply hin, hr, hu]
  | blank hin hr hc hb => rw [judge_of_carries hin hr hc, accept_of_blank hb]
  | short hin hr hc hb hl => rw [judge_of_carries hin hr hc, accept_of_short hb hl]

/-- **Every attempt comes to something**: a document or a reason. -/
theorem succeeds_or_fails (f : Fetcher) (resolved : String) (route : Route) :
    (∃ body, f.Succeeds resolved route body) ∨ ∃ e, f.FailsFor resolved route e := by
  -- one case for each step that can end the attempt, in the order of the steps
  by_cases hlate : ¬ (f.answerTo resolved route).ComesWithin f.timeout
  · exact .inr ⟨_, .late hlate⟩
  have hin := Classical.not_not.mp hlate
  rcases hr : (f.answerTo resolved route).reply with e | answer
  · exact .inr ⟨e, .refused hin hr⟩
  rcases hu : route.unwrap answer with e | body
  · exact .inr ⟨e, .unreadable hin hr hu⟩
  have hc := (Route.unwrap_eq_ok_iff).mp hu
  rcases hb : Text.isBlankText body.toList with - | -
  · have hex := (isBlankText_eq_false_iff).mp hb
    rcases Nat.lt_or_ge f.settings.leastLength body.length with hl | hl
    · exact .inl ⟨body, hin, ⟨answer, hr, hc⟩, hex, hl⟩
    · exact .inr ⟨_, .short hin hr hc hex hl⟩
  · exact .inr ⟨_, .blank hin hr hc (List.all_eq_true.mp hb)⟩

/-- And to one thing only: a way that fails does not succeed. -/
theorem FailsFor.not_succeeds (h : f.FailsFor resolved route e) :
    ¬ ∃ body, f.Succeeds resolved route body := by
  rintro ⟨body, hs⟩
  have heq : (.ok body : Except Error String) = .error e :=
    (judge_of_succeeds hs).symm.trans (judge_of_failsFor h)
  cases heq

/-! ## Where a URL leads -/

variable {url final : String} {probe : List Call}

/-- A shortcut is looked for by the rule. -/
theorem isFor_iff {s : Shortcut} :
    (!s.marker.isEmpty && Text.holds url s.marker) = true ↔ s.IsFor url := by
  simp [Shortcut.IsFor, Text.holds_iff]

theorem shortcutFor_eq_none_iff :
    f.settings.shortcutFor url = none ↔ ∀ s ∈ f.settings.shortcuts, ¬ s.IsFor url := by
  simp only [Settings.shortcutFor, List.find?_eq_none, isFor_iff]

/-- The shortcut that is found is the first one for the URL. -/
theorem shortcutFor_eq_some_iff {s : Shortcut} :
    f.settings.shortcutFor url = some s ↔
      s.IsFor url ∧ ∃ front back, f.settings.shortcuts = front ++ s :: back ∧
        ∀ t ∈ front, ¬ t.IsFor url := by
  rw [Settings.shortcutFor, List.find?_eq_some_iff_append, isFor_iff]
  simp only [Bool.not_eq_true', ← Bool.not_eq_true, isFor_iff]

/-- **Where a URL leads is what resolving gives**, with no other request
than those of the rule. -/
theorem resolve_of_leadsTo (h : f.LeadsTo url final probe) :
    (f.resolve url).value = final ∧ (f.resolve url).calls = probe := by
  cases h with
  | @shortcut front back s hs hfor hfirst =>
    have hfind := (shortcutFor_eq_some_iff).mpr ⟨hfor, front, back, hs, hfirst⟩
    simp [resolve, hfind]
  | answer hs hin hr =>
    have hnone := (shortcutFor_eq_none_iff).mpr hs
    -- only another URL is reported as a redirect
    by_cases hsame : final = url
    · simp [resolve, hnone, inTime_eq_reply hin, hr, hsame]
    · simp [resolve, hnone, inTime_eq_reply hin, hr, hsame]
  | unanswered hs hno =>
    have hnone := (shortcutFor_eq_none_iff).mpr hs
    by_cases hin : (f.transport.resolve url).ComesWithin f.timeout
    · rcases hr : (f.transport.resolve url).reply with e | final
      · simp [resolve, hnone, inTime_eq_reply hin, hr]
      · exact absurd ⟨final, hin, hr⟩ hno
    · simp [resolve, hnone, inTime_eq_timeout hin]

/-- Every URL leads somewhere. -/
theorem exists_leadsTo (f : Fetcher) (url : String) :
    ∃ final probe, f.LeadsTo url final probe := by
  rcases hfind : f.settings.shortcutFor url with - | s
  · have hs := (shortcutFor_eq_none_iff).mp hfind
    by_cases hex : ∃ final, (f.transport.resolve url).ComesWithin f.timeout ∧
        (f.transport.resolve url).reply = .ok final
    · obtain ⟨final, hin, hr⟩ := hex
      exact ⟨final, _, .answer hs hin hr⟩
    · exact ⟨url, _, .unanswered hs hex⟩
  · obtain ⟨hfor, front, back, hs, hfirst⟩ := (shortcutFor_eq_some_iff).mp hfind
    exact ⟨_, _, .shortcut hs hfor hfirst⟩

end Fetcher

end ShellPreview.Fetch
