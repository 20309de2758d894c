import ShellPreview.Fetch.Placeholder
import ShellPreview.Proofs.Fetch.Order
import ShellPreview.Proofs.Text.Parts
/-!
# Fetching — the built-in shortcut

A shortcut is found by its text. The text of the built-in one is the name
of a host with the beginning of a path behind it, but it is looked for in
all of a URL: it is found where the host ends with the name and the rest
begins with the path, and also where the rest has both
(`infix_url_iff`). Any other URL is probed and asked for through the ways,
and its placeholder is the general one (`builtin_shortcut_by_text`).
-/

namespace ShellPreview.Fetch

/-- What ends the host of a URL. -/
def isHostStop (c : Char) : Bool :=
  c == '/' || c == '?' || c == '#'

/-- A URL is a scheme, a host and a rest, which begins with what ends the
host. -/
structure HasHost (url : String) (host rest : List Char) : Prop where
  text : ∃ scheme, '/' ∉ scheme ∧ url.toList = scheme ++ ("://".toList ++ (host ++ rest))
  noStop : ∀ c ∈ host, isHostStop c = false
  stop : Text.AtStop isHostStop rest

/-- A host and a rest have a name and a path: the one ends with the name
where the other begins with the path, or the rest has both. -/
def Mentions (name path host rest : List Char) : Prop :=
  name <:+ host ∧ path <+: rest ∨ name ++ path <:+: rest

instance (name path host rest : List Char) : Decidable (Mentions name path host rest) :=
  inferInstanceAs (Decidable (name <:+ host ∧ path <+: rest ∨ name ++ path <:+: rest))

section Text

variable {url : String} {name tail scheme host rest : List Char}

/-! ## A name and a path in a URL -/

/-- A name and a path stand at the end of a host, or behind it. -/
theorem infix_host_iff (hname : ∀ c ∈ name, isHostStop c = false)
    (hhost : ∀ c ∈ host, isHostStop c = false) (hrest : Text.AtStop isHostStop rest) :
    name ++ '/' :: tail <:+: host ++ rest ↔ Mentions name ('/' :: tail) host rest := by
  have hslash : isHostStop '/' = true := rfl
  have hno : ∀ {cs : List Char}, cs <:+: host → '/' ∉ cs := by
    intro cs hcs hmem
    have hpassed := hhost '/' (hcs.subset hmem)
    rw [hslash] at hpassed
    cases hpassed
  constructor
  · intro hpart
    rcases List.infix_append_iff.mp hpart with hin | hbehind | ⟨front, back, hsplit, hfront, hback⟩
    · exact absurd (List.mem_append_right name List.mem_cons_self) (hno hin)
    · exact .inr hbehind
    -- the stop with which the rest begins is the one between name and path
    · rcases List.append_eq_append_iff.mp hsplit with ⟨more, rfl, hpath⟩ | ⟨more, hmore, rfl⟩
      · cases more with
        | nil =>
          obtain rfl : '/' :: tail = back := hpath
          exact .inl ⟨by rwa [List.append_nil] at hfront, hback⟩
        | cons c more =>
          obtain rfl : c = '/' := (List.cons.inj hpath).1.symm
          have hmem : '/' ∈ name ++ '/' :: more := List.mem_append_right name List.mem_cons_self
          exact absurd hmem (hno hfront.isInfix)
      · cases more with
        | nil =>
          rw [List.append_nil] at hmore
          exact .inl ⟨hmore ▸ hfront, hback⟩
        | cons c more =>
          have hstop : isHostStop c = true := by
            obtain ⟨behind, rfl⟩ := hback
            exact hrest c rfl
          have hpassed := hname c (hmore ▸ List.mem_append_right front List.mem_cons_self)
          rw [hstop] at hpassed
          cases hpassed
  · rintro (⟨⟨front, rfl⟩, ⟨back, rfl⟩⟩ | hbehind)
    · exact ⟨front, back, by simp⟩
    · exact hbehind.trans (List.suffix_append host rest).isInfix

/-- **A name and a path in a URL** stand at the end of its host, or behind
it. -/
theorem infix_url_iff (hurl : HasHost url host rest) (hne : name ≠ [])
    (hname : ∀ c ∈ name, isHostStop c = false) (hcolon : ¬[':', '/'] <:+: name ++ '/' :: tail) :
    name ++ '/' :: tail <:+: url.toList ↔ Mentions name ('/' :: tail) host rest := by
  obtain ⟨scheme, hscheme, htext⟩ := hurl.text
  obtain ⟨n, ns, rfl⟩ := List.exists_cons_of_ne_nil hne
  have hcut : url.toList = (scheme ++ [':']) ++ '/' :: '/' :: (host ++ rest) := by
    rw [htext]
    simp
  have hfront : ¬(n :: ns ++ '/' :: tail <:+: scheme ++ [':']) := by
    intro hpart
    have hmem : '/' ∈ scheme ++ [':'] :=
      hpart.subset (List.mem_append_right _ List.mem_cons_self)
    rcases List.mem_append.mp hmem with hmem | hmem
    · exact hscheme hmem
    · cases List.mem_singleton.mp hmem
  have hslash : ∀ cs, ¬(n :: ns ++ '/' :: tail <+: '/' :: cs) := by
    intro cs hprefix
    obtain ⟨rfl, -⟩ := List.cons_prefix_cons.mp hprefix
    cases hname '/' List.mem_cons_self
  rw [hcut, Text.infix_cut_iff hcolon, or_iff_right hfront, List.infix_cons_iff,
    or_iff_right (hslash _), List.infix_cons_iff, or_iff_right (hslash _),
    infix_host_iff hname hurl.noStop hurl.stop]

end Text

namespace Fetcher

/-- A fetch makes some requests and then asks the ways in order for one
URL. -/
inductive AsksFor (f : Fetcher) (url resolved : String) (probe : List Call) : Prop
  /-- A way gives a document, and no way in front of it does. -/
  | document {front back : List Route} {route : Route} {body : String}
      (hroutes : f.settings.routes = front ++ route :: back)
      (hfront : ∀ r ∈ front, ¬∃ text, f.Succeeds resolved r text)
      (hs : f.Succeeds resolved route body)
      (hvalue : (f.fetch url).value = .ok ⟨url, resolved, route.name, body⟩)
      (hcalls : (f.fetch url).calls = probe ++ (front ++ [route]).map (Route.request resolved))
  /-- No way gives a document, and all are asked. -/
  | failure {attempts : List Attempt}
      (hnone : ∀ r ∈ f.settings.routes, ¬∃ text, f.Succeeds resolved r text)
      (hvalue : (f.fetch url).value = .error ⟨url, resolved, attempts⟩)
      (hcalls : (f.fetch url).calls = probe ++ f.settings.routes.map (Route.request resolved))

variable {f : Fetcher} {url resolved : String} {probe : List Call}

/-- The ways are asked for what the URL leads to. -/
theorem LeadsTo.asksFor (h : f.LeadsTo url resolved probe) : f.AsksFor url resolved probe := by
  obtain ⟨hvalue, hcalls⟩ := fetch_of_leadsTo h
  rcases f.tryRoutes_cases url resolved f.settings.routes.length f.settings.routes with
    ⟨front, route, back, body, hroutes, hfront, hs, hv, hc⟩ | ⟨attempts, hnone, -, hv, hc⟩
  · exact .document hroutes hfront hs (hvalue.trans hv) (by rw [hcalls, hc])
  · exact .failure hnone (hvalue.trans hv) (by rw [hcalls, hc])

/-- A URL without a shortcut is probed. -/
theorem exists_leadsTo_of_probe (h : ∀ s ∈ f.settings.shortcuts, ¬s.IsFor url) :
    ∃ final, f.LeadsTo url final [.resolve url] := by
  obtain ⟨final, probe, hlead⟩ := f.exists_leadsTo url
  cases hlead with
  | @shortcut front back s hs hfor =>
    have hin : s ∈ f.settings.shortcuts := hs ▸ List.mem_append_right front List.mem_cons_self
    exact absurd hfor (h s hin)
  | answer hs hin hr => exact ⟨final, .answer hs hin hr⟩
  | unanswered hs hno => exact ⟨url, .unanswered hs hno⟩

end Fetcher

/-! ## The built-in shortcut -/

/-- A fetcher with the built-in settings. -/
def Fetcher.builtin (transport : Transport) (timeout : Nat) : Fetcher :=
  ⟨transport, .default, timeout⟩

/-- The name of the host in the text of the built-in shortcut, -/
def builtinName : List Char :=
  "christitus.com".toList

/-- and the path. -/
def builtinPath : List Char :=
  "/win".toList

section Builtin

variable {transport : Transport} {timeout : Nat} {url : String} {host rest : List Char}

/-- The built-in shortcut is for the URLs that have its name and its
path. -/
theorem isFor_builtin_iff (hurl : HasHost url host rest) {s : Shortcut}
    (hs : s ∈ Settings.default.shortcuts) :
    s.IsFor url ↔ Mentions builtinName builtinPath host rest := by
  obtain rfl := List.mem_singleton.mp hs
  have hname : ∀ c ∈ builtinName, isHostStop c = false := Text.forall_of_all_not (by decide)
  have hpart : builtinName ++ '/' :: "win".toList <:+: url.toList ↔
      Mentions builtinName ('/' :: "win".toList) host rest :=
    infix_url_iff hurl (by decide) hname (by decide)
  rw [Shortcut.IsFor, and_iff_right (by decide)]
  exact hpart

/-- The placeholder of a URL without a shortcut is the general one. -/
theorem placeholder_of_general {settings : Settings} {failure : Failure}
    (h : settings.shortcutFor failure.requestedUrl = none) :
    failure.placeholder settings = "\n".intercalate (generalLines failure) := by
  rw [Failure.placeholder, h]

theorem placeholder_of_shortcut {settings : Settings} {failure : Failure} {s : Shortcut}
    (h : settings.shortcutFor failure.requestedUrl = some s) :
    failure.placeholder settings = "\n".intercalate (shortcutLines failure s) := by
  rw [Failure.placeholder, h]

/-- **The built-in shortcut goes by a text, not by a host.** A URL whose
host does not end with the name in front of the path and whose rest does
not have both is probed; the ways are asked for what the probe says, or
for the URL itself, and its placeholder is the general one. Any other URL,
whatever its host is, is not probed: the ways are asked for the target of
the shortcut, and the placeholder tells of that. -/
theorem builtin_shortcut_by_text (transport : Transport) (timeout : Nat)
    (hurl : HasHost url host rest) :
    (¬Mentions builtinName builtinPath host rest →
      (∃ final, (Fetcher.builtin transport timeout).LeadsTo url final [.resolve url] ∧
        (Fetcher.builtin transport timeout).AsksFor url final [.resolve url]) ∧
      ∀ failure : Failure, failure.requestedUrl = url →
        failure.placeholder .default = "\n".intercalate (generalLines failure)) ∧
    (Mentions builtinName builtinPath host rest →
      ∃ s ∈ Settings.default.shortcuts,
        (Fetcher.builtin transport timeout).AsksFor url s.finalUrl [] ∧
        ∀ failure : Failure, failure.requestedUrl = url →
          failure.placeholder .default = "\n".intercalate (shortcutLines failure s)) := by
  have hiff : ∀ s ∈ (Fetcher.builtin transport timeout).settings.shortcuts,
      (s.IsFor url ↔ Mentions builtinName builtinPath host rest) :=
    fun s hs => isFor_builtin_iff hurl hs
  constructor
  · intro hno
    have hnone : ∀ s ∈ (Fetcher.builtin transport timeout).settings.shortcuts, ¬s.IsFor url :=
      fun s hs hfor => hno ((hiff s hs).mp hfor)
    have hfind := Fetcher.shortcutFor_eq_none_iff.mpr hnone
    obtain ⟨final, hlead⟩ := Fetcher.exists_leadsTo_of_probe hnone
    refine ⟨⟨final, hlead, hlead.asksFor⟩, ?_⟩
    rintro failure rfl
    exact placeholder_of_general hfind
  · intro hmentions
    have hmem : ∃ s, Settings.default.shortcuts = [] ++ s :: [] := ⟨_, rfl⟩
    obtain ⟨s, hs⟩ := hmem
    have hin : s ∈ Settings.default.shortcuts := hs ▸ List.mem_singleton_self s
    have hfor : s.IsFor url := (hiff s hin).mpr hmentions
    have hfirst : ∀ t ∈ ([] : List Shortcut), ¬t.IsFor url := List.forall_mem_nil _
    have hlead : (Fetcher.builtin transport timeout).LeadsTo url s.finalUrl [] :=
      .shortcut hs hfor hfirst
    have hfind : (Fetcher.builtin transport timeout).settings.shortcutFor url = some s :=
      Fetcher.shortcutFor_eq_some_iff.mpr ⟨hfor, [], [], hs, hfirst⟩
    refine ⟨s, hin, hlead.asksFor, ?_⟩
    rintro failure rfl
    exact placeholder_of_shortcut hfind

/-- A path of another host, and another host with the name at its end. -/
theorem builtin_shortcut_by_text_samples :
    (∃ final, (Fetcher.builtin .offline 0).LeadsTo "https://example.com/win?a" final
        [.resolve "https://example.com/win?a"] ∧
      (Fetcher.builtin .offline 0).AsksFor "https://example.com/win?a" final
        [.resolve "https://example.com/win?a"]) ∧
    ∃ s ∈ Settings.default.shortcuts,
      (Fetcher.builtin .offline 0).AsksFor "https://notchristitus.com/windows" s.finalUrl [] := by
  have hscheme : '/' ∉ "https".toList := by decide
  have hexample : HasHost "https://example.com/win?a" "example.com".toList "/win?a".toList :=
    ⟨⟨"https".toList, hscheme, rfl⟩, Text.forall_of_all_not (by decide),
      Text.atStop_cons (c := '/') rfl _⟩
  have hlook : HasHost "https://notchristitus.com/windows" "notchristitus.com".toList
      "/windows".toList :=
    ⟨⟨"https".toList, hscheme, rfl⟩, Text.forall_of_all_not (by decide),
      Text.atStop_cons (c := '/') rfl _⟩
  obtain ⟨s, hs, hasks, -⟩ := (builtin_shortcut_by_text .offline 0 hlook).2 (by decide)
  exact ⟨((builtin_shortcut_by_text .offline 0 hexample).1 (by decide)).1, s, hs, hasks⟩

/-- A URL with the text of the shortcut in the path of another host. -/
def urlOfOtherHost : String :=
  "https://example.com/christitus.com/win"

/-- So a host that has nothing to do with the name can have the script of
the shortcut shown in place of its own: it is asked for nothing. -/
theorem shortcut_for_other_host :
    HasHost urlOfOtherHost "example.com".toList "/christitus.com/win".toList ∧
      "example.com".toList ≠ builtinName ∧ ¬ '.' :: builtinName <:+ "example.com".toList ∧
      Call.resolve urlOfOtherHost ∉ ((Fetcher.builtin .offline 0).fetch urlOfOtherHost).calls ∧
      (∀ route ∈ Settings.default.routes, route.request urlOfOtherHost ∉
        ((Fetcher.builtin .offline 0).fetch urlOfOtherHost).calls) ∧
      (⟨urlOfOtherHost, urlOfOtherHost, []⟩ : Failure).placeholder .default ≠
        "\n".intercalate (generalLines ⟨urlOfOtherHost, urlOfOtherHost, []⟩) := by
  have hhost : HasHost urlOfOtherHost "example.com".toList "/christitus.com/win".toList :=
    ⟨⟨"https".toList, by decide, rfl⟩, Text.forall_of_all_not (by decide),
      Text.atStop_cons (c := '/') rfl _⟩
  exact ⟨hhost, by decide, by decide, by decide, by decide +kernel, by decide⟩

end Builtin

end ShellPreview.Fetch
