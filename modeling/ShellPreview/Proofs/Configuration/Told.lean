import ShellPreview.Configuration
import ShellPreview.Proofs.Json.Members
/-!
# Configurations told by values

An entry of a table is told by an object with the fields of the entry, in
any order and among members that mean nothing. Settings and configurations
may be told in part: `Told` says which values tell which parts, without
regard to what is built in. The schemas accept such a value as what it
tells (`Told.acceptAt`), with what is built in for all other parts
(`overlay`).
-/

namespace ShellPreview

open Json

/-! ## Entries

An entry is told by an object that has the fields of the entry; a field
that has its built-in value may be left out. -/

/-- The value tells the tool. -/
def Tool.Told (t : Tool) (v : Json) : Prop :=
  ∃ ms, v = .object ms ∧ valuesOf "token" ms = [.text t.token] ∧
    valuesOf "name" ms = [.text t.name] ∧ valuesOf "description" ms = [.text t.description]

theorem Tool.told_toJson (t : Tool) : t.Told t.toJson :=
  ⟨_, rfl, rfl, rfl, rfl⟩

theorem Tool.Told.acceptAt {t : Tool} {v : Json} (h : t.Told v) (aside : Bool) :
    Tool.form.acceptAt aside v = .ok t.toJson := by
  obtain ⟨ms, rfl, htoken, hname, hdescription⟩ := h
  exact acceptAt_record_once aside (by decide)
    (.cons (.given htoken rfl) (.cons (.given hname rfl) (.cons (.given hdescription rfl) .nil)))

/-- The value tells the package manager. -/
def Manager.Told (m : Manager) (v : Json) : Prop :=
  ∃ ms, v = .object ms ∧ valuesOf "prefix" ms = [.text m.token] ∧
    valuesOf "name" ms = [.text m.name] ∧ valuesOf "description" ms = [.text m.description] ∧
    (valuesOf "searchUrlTemplate" ms = [.text m.searchTemplate] ∨
      valuesOf "searchUrlTemplate" ms = [] ∧ m.searchTemplate = "") ∧
    valuesOf "installPattern" ms = [.text m.installPattern]

theorem Manager.told_toJson (m : Manager) : m.Told m.toJson :=
  ⟨_, rfl, rfl, rfl, rfl, .inl rfl, rfl⟩

theorem Manager.Told.acceptAt {m : Manager} {v : Json} (h : m.Told v) (aside : Bool) :
    Manager.form.acceptAt aside v = .ok m.toJson := by
  obtain ⟨ms, rfl, htoken, hname, hdescription, hsearch, hpattern⟩ := h
  have hsearch := hsearch.imp_right (And.imp_right (congrArg Json.text))
  exact acceptAt_record_once aside (by decide)
    (.cons (.given htoken rfl) (.cons (.given hname rfl) (.cons (.given hdescription rfl)
      (.cons (.given_or hsearch rfl) (.cons (.given hpattern rfl) .nil)))))

namespace Fetch

theorem RelayFormat.name_mem (f : RelayFormat) : f.name ∈ RelayFormat.all.map RelayFormat.name := by
  cases f <;> decide

/-- The value tells the way, in the fields of its kind. -/
def Route.Told : Route → Json → Prop
  | .relay name base format encodeTarget, v =>
    ∃ ms, v = .object ms ∧ valuesOf "kind" ms = [.text "relay"] ∧
      valuesOf "name" ms = [.text name] ∧ valuesOf "prefix" ms = [.text base] ∧
      valuesOf "format" ms = [.text format.name] ∧
      (valuesOf "encodeTarget" ms = [.flag encodeTarget] ∨
        valuesOf "encodeTarget" ms = [] ∧ encodeTarget = false)
  | .direct, v => ∃ ms, v = .object ms ∧ valuesOf "kind" ms = [.text "direct"]

theorem Route.told_toJson (r : Route) : r.Told r.toJson := by
  cases r with
  | relay => exact ⟨_, rfl, rfl, rfl, rfl, rfl, .inl rfl⟩
  | direct => exact ⟨_, rfl, rfl⟩

theorem Route.Told.acceptAt {r : Route} {v : Json} (h : r.Told v) (aside : Bool) :
    Route.form.acceptAt aside v = .ok r.toJson := by
  cases r with
  | relay name base format encodeTarget =>
    obtain ⟨ms, rfl, hkind, hname, hbase, hformat, hencode⟩ := h
    have hencode := hencode.imp_right (And.imp_right (congrArg Json.flag))
    exact acceptAt_tagged_once aside rfl (by decide) (by decide) hkind
      (.cons (.given hname rfl) (.cons (.given hbase rfl)
        (.cons (.given hformat (acceptAt_choice true format.name_mem))
          (.cons (.given_or hencode rfl) .nil))))
  | direct =>
    obtain ⟨ms, rfl, hkind⟩ := h
    exact acceptAt_tagged_bare aside rfl hkind

/-- The value tells the shortcut. -/
def Shortcut.Told (s : Shortcut) (v : Json) : Prop :=
  ∃ ms, v = .object ms ∧ valuesOf "matches" ms = [.text s.marker] ∧
    valuesOf "finalUrl" ms = [.text s.finalUrl] ∧ valuesOf "title" ms = [.text s.title] ∧
    (valuesOf "notes" ms = [.list (s.notes.map .text)] ∨ valuesOf "notes" ms = [] ∧ s.notes = [])

theorem Shortcut.told_toJson (s : Shortcut) : s.Told s.toJson :=
  ⟨_, rfl, rfl, rfl, rfl, .inl rfl⟩

theorem Shortcut.Told.acceptAt {s : Shortcut} {v : Json} (h : s.Told v) (aside : Bool) :
    Shortcut.form.acceptAt aside v = .ok s.toJson := by
  obtain ⟨ms, rfl, hmarker, hfinal, htitle, hnotes⟩ := h
  have hnotes := hnotes.imp_right
    (And.imp_right (congrArg fun notes => Json.list (notes.map Json.text)))
  exact acceptAt_record_once aside (by decide)
    (.cons (.given hmarker rfl) (.cons (.given hfinal rfl) (.cons (.given htitle rfl)
      (.cons (.given_or hnotes (acceptAt_texts aside s.notes)) .nil))))

/-! ## Settings for fetching -/

namespace Settings

/-- Which of the settings are told. -/
structure Parts where
  timeoutSeconds : Bool
  leastLength : Bool
  routes : Bool
  shortcuts : Bool

/-- The value tells these parts of the settings, and no other part. -/
def Told (s : Settings) (p : Parts) (v : Json) : Prop :=
  ∃ ms, v = .object ms ∧
    HasPart ms "attemptTimeoutSecs" p.timeoutSeconds (· = .nat s.timeoutSeconds) ∧
    HasPart ms "minContentLength" p.leastLength (· = .nat s.leastLength) ∧
    HasPart ms "routes" p.routes (Lists Route.Told s.routes) ∧
    HasPart ms "redirectShortcuts" p.shortcuts (Lists Shortcut.Told s.shortcuts)

/-- The object that holds just these parts of the settings. -/
def only (s : Settings) (p : Parts) : Json :=
  .object (partsOf
    [(p.timeoutSeconds, "attemptTimeoutSecs", .nat s.timeoutSeconds),
      (p.leastLength, "minContentLength", .nat s.leastLength),
      (p.routes, "routes", .list (s.routes.map Route.toJson)),
      (p.shortcuts, "redirectShortcuts", .list (s.shortcuts.map Shortcut.toJson))])

theorem told_only (s : Settings) (p : Parts) : s.Told p (s.only p) :=
  ⟨_, rfl, hasPart_partsOf (by simp) (by simp) rfl, hasPart_partsOf (by simp) (by simp) rfl,
    hasPart_partsOf (by simp) (by simp) (lists_map Route.told_toJson s.routes),
    hasPart_partsOf (by simp) (by simp) (lists_map Shortcut.told_toJson s.shortcuts)⟩

/-- The settings that are told, with the built-in ones for all others. -/
def overlay (s : Settings) (p : Parts) : Settings where
  timeoutSeconds := if p.timeoutSeconds then s.timeoutSeconds else Settings.default.timeoutSeconds
  leastLength := if p.leastLength then s.leastLength else Settings.default.leastLength
  routes := if p.routes then s.routes else Settings.default.routes
  shortcuts := if p.shortcuts then s.shortcuts else Settings.default.shortcuts

/-- Part by part, the object is that of what is told or that of what is built
in. -/
theorem toJson_overlay (s : Settings) (p : Parts) :
    (s.overlay p).toJson = .object
      [("attemptTimeoutSecs", if p.timeoutSeconds then .nat s.timeoutSeconds
        else .nat Settings.default.timeoutSeconds),
      ("minContentLength", if p.leastLength then .nat s.leastLength
        else .nat Settings.default.leastLength),
      ("routes", if p.routes then .list (s.routes.map Route.toJson)
        else .list (Settings.default.routes.map Route.toJson)),
      ("redirectShortcuts", if p.shortcuts then .list (s.shortcuts.map Shortcut.toJson)
        else .list (Settings.default.shortcuts.map Shortcut.toJson))] := by
  simp only [overlay, toJson, apply_ite Json.nat, apply_ite (List.map Route.toJson),
    apply_ite (List.map Shortcut.toJson), apply_ite Json.list]

theorem Told.acceptAt {s : Settings} {p : Parts} {v : Json} (h : s.Told p v) (aside : Bool) :
    Settings.form.acceptAt aside v = .ok (s.overlay p).toJson := by
  obtain ⟨ms, rfl, htimeout, hleast, hroutes, hshortcuts⟩ := h
  have hroute : ∀ r v, Route.Told r v → Route.form.acceptAt aside v = .ok r.toJson :=
    fun _ _ hr => hr.acceptAt aside
  have hshortcut : ∀ s v, Shortcut.Told s v → Shortcut.form.acceptAt aside v = .ok s.toJson :=
    fun _ _ hs => hs.acceptAt aside
  rw [toJson_overlay]
  refine acceptAt_record_once aside (by simp) (.cons (.part htimeout ?_) (.cons (.part hleast ?_)
    (.cons (.part hroutes fun v => Lists.acceptAt aside hroute)
      (.cons (.part hshortcuts fun v => Lists.acceptAt aside hshortcut) .nil))))
  · rintro v rfl
    exact acceptAt_natural ..
  · rintro v rfl
    exact acceptAt_natural ..

end Settings

end Fetch

/-! ## Configurations -/

namespace Configuration

/-- Which fields of a configuration are told, at the top and, if the settings
for fetching are there, among those. -/
structure Parts where
  managers : Bool
  tools : Bool
  fetch : Bool
  settings : Fetch.Settings.Parts

/-- The value tells these parts of the configuration, and no other part. -/
def Told (c : Configuration) (p : Parts) (v : Json) : Prop :=
  ∃ ms, v = .object ms ∧
    HasPart ms "packageManagers" p.managers (Lists Manager.Told c.managers) ∧
    HasPart ms "programmingTools" p.tools (Lists Tool.Told c.tools) ∧
    HasPart ms "fetch" p.fetch (c.fetch.Told p.settings)

/-- The object that holds just these parts of the configuration. -/
def only (c : Configuration) (p : Parts) : Json :=
  .object (partsOf
    [(p.managers, "packageManagers", .list (c.managers.map Manager.toJson)),
      (p.tools, "programmingTools", .list (c.tools.map Tool.toJson)),
      (p.fetch, "fetch", c.fetch.only p.settings)])

theorem told_only (c : Configuration) (p : Parts) : c.Told p (c.only p) :=
  ⟨_, rfl, hasPart_partsOf (by simp) (by simp) (lists_map Manager.told_toJson c.managers),
    hasPart_partsOf (by simp) (by simp) (lists_map Tool.told_toJson c.tools),
    hasPart_partsOf (by simp) (by simp) (c.fetch.told_only p.settings)⟩

/-- The configuration that is told, with what is built in for all that is
not. -/
def overlay (c : Configuration) (p : Parts) : Configuration where
  managers := if p.managers then c.managers else Configuration.default.managers
  tools := if p.tools then c.tools else Configuration.default.tools
  fetch := if p.fetch then c.fetch.overlay p.settings else Configuration.default.fetch

theorem toJson_overlay (c : Configuration) (p : Parts) :
    (c.overlay p).toJson = .object
      [("packageManagers", if p.managers then .list (c.managers.map Manager.toJson)
        else .list (Configuration.default.managers.map Manager.toJson)),
      ("programmingTools", if p.tools then .list (c.tools.map Tool.toJson)
        else .list (Configuration.default.tools.map Tool.toJson)),
      ("fetch", if p.fetch then (c.fetch.overlay p.settings).toJson
        else Configuration.default.fetch.toJson)] := by
  simp only [overlay, toJson, apply_ite Fetch.Settings.toJson, apply_ite (List.map Manager.toJson),
    apply_ite (List.map Tool.toJson), apply_ite Json.list]

theorem Told.acceptAt {c : Configuration} {p : Parts} {v : Json} (h : c.Told p v) (aside : Bool) :
    form.acceptAt aside v = .ok (c.overlay p).toJson := by
  obtain ⟨ms, rfl, hmanagers, htools, hfetch⟩ := h
  have hmanager : ∀ m v, Manager.Told m v → Manager.form.acceptAt aside v = .ok m.toJson :=
    fun _ _ hm => hm.acceptAt aside
  have htool : ∀ t v, Tool.Told t v → Tool.form.acceptAt aside v = .ok t.toJson :=
    fun _ _ ht => ht.acceptAt aside
  rw [toJson_overlay]
  exact acceptAt_record_once aside (by simp)
    (.cons (.part hmanagers fun v => Lists.acceptAt aside hmanager)
      (.cons (.part htools fun v => Lists.acceptAt aside htool)
        (.cons (.part hfetch fun v hv => hv.acceptAt aside) .nil)))

end Configuration

end ShellPreview
