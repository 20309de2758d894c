import ShellPreview.Configuration.Store
import ShellPreview.Proofs.Configuration.Told
import ShellPreview.Proofs.FileTree
/-!
# A configuration is read back

A configuration is written in its own normal form: the schema accepts it
as it is (`acceptAt_toJson`), since all of its parts are told, and each
part is made of it again (`ofNormal_toJson`). So a configuration is read
back from its text if its two numbers are of 64 bits, and a configuration
that was read has such numbers.
-/

namespace ShellPreview

open Json

theorem Tool.ofNormal_toJson (t : Tool) : Tool.ofNormal t.toJson = t := by
  simp [Tool.ofNormal, Tool.toJson, field_object, List.lookup_cons]

theorem Manager.ofNormal_toJson (m : Manager) : Manager.ofNormal m.toJson = m := by
  simp [Manager.ofNormal, Manager.toJson, field_object, List.lookup_cons]

namespace Fetch

theorem Shortcut.ofNormal_toJson (s : Shortcut) : Shortcut.ofNormal s.toJson = s := by
  simp [Shortcut.ofNormal, Shortcut.toJson, field_object, List.lookup_cons, Function.comp_def]

theorem RelayFormat.ofName?_name (f : RelayFormat) : RelayFormat.ofName? f.name = some f := by
  cases f <;> rfl

theorem Route.ofNormal_toJson (r : Route) : Route.ofNormal r.toJson = r := by
  cases r with
  | relay name base format encodeTarget =>
    simp [Route.ofNormal, Route.toJson, field_object, List.lookup_cons, RelayFormat.ofName?_name]
  | direct => simp [Route.ofNormal, Route.toJson, field_object]

/-- The numbers are of 64 bits. -/
def Settings.Fits (s : Settings) : Prop :=
  s.timeoutSeconds ≤ maxWhole ∧ s.leastLength ≤ maxWhole

theorem Settings.ofNormal_toJson (s : Settings) : Settings.ofNormal s.toJson = s := by
  simp [Settings.ofNormal, Settings.toJson, field_object, List.lookup_cons, Function.comp_def,
    Route.ofNormal_toJson, Shortcut.ofNormal_toJson]

end Fetch

namespace Configuration

theorem acceptAt_toJson (aside : Bool) (c : Configuration) :
    form.acceptAt aside c.toJson = .ok c.toJson :=
  (c.told_only ⟨true, true, true, true, true, true, true⟩).acceptAt aside

theorem ofNormal_toJson (c : Configuration) : ofNormal c.toJson = c := by
  simp [ofNormal, toJson, field_object, List.lookup_cons, Function.comp_def,
    Manager.ofNormal_toJson, Tool.ofNormal_toJson, Fetch.Settings.ofNormal_toJson]

theorem nests_toJson (c : Configuration) : Nests 5 c.toJson := by
  have hroute : ∀ r : Fetch.Route, Nests 2 r.toJson := by
    intro r
    cases r <;> simp [Fetch.Route.toJson]
  simp [toJson, Manager.toJson, Tool.toJson, Fetch.Settings.toJson, Fetch.Shortcut.toJson, hroute]

theorem numbers_toJson {c : Configuration} (h : c.fetch.Fits) :
    Numbers Numeral.ReadsBack c.toJson := by
  have hroute : ∀ r : Fetch.Route, Numbers Numeral.ReadsBack r.toJson := by
    intro r
    cases r <;> simp [Fetch.Route.toJson]
  simp [toJson, Manager.toJson, Tool.toJson, Fetch.Settings.toJson, Fetch.Shortcut.toJson, hroute,
    Numeral.readsBack_nat h.1, Numeral.readsBack_nat h.2]

theorem parse_text {c : Configuration} (h : c.fetch.Fits) : parse c.text = .ok c := by
  have hnests : Nests maxDepth c.toJson := c.nests_toJson.mono (by decide)
  have hread := Schema.parse_pretty hnests (numbers_toJson h) (acceptAt_toJson false c) blanks_nil
  rw [String.ofList_nil, String.append_empty] at hread
  rw [parse, text, hread]
  exact congrArg Except.ok c.ofNormal_toJson

end Configuration

namespace Fetch.Settings

/-- A number that was read or is built in is of 64 bits. -/
theorem asNat_le_of_gives {word : String} {d room : Nat} {v : Json} (hd : d ≤ maxWhole)
    (h : Gives ((Schema.natural word).read room) v ∨ (Absent.fallback (.nat d)).Stands v) :
    v.asNat ≤ maxWhole := by
  rcases h with hgives | hstands
  · obtain ⟨n, hn, rfl⟩ := gives_natural hgives
    exact hn
  · obtain rfl : v = .nat d := hstands
    exact hd

theorem fits_of_gives {room : Nat} {w : Json} (h : Gives (form.read room) w) :
    (ofNormal w).Fits := by
  obtain ⟨_, -, htimeout⟩ := gives_field (by simp) h List.mem_cons_self
  obtain ⟨_, -, hleast⟩ := gives_field (by simp) h (List.mem_cons_of_mem _ List.mem_cons_self)
  exact ⟨asNat_le_of_gives (by decide) htimeout, asNat_le_of_gives (by decide) hleast⟩

end Fetch.Settings

namespace Configuration

theorem fits_default : Configuration.default.fetch.Fits :=
  ⟨by decide, by decide⟩

/-- The numbers of a configuration that a text spells are of 64 bits. -/
theorem fits_of_parse {s : String} {c : Configuration} (h : parse s = .ok c) : c.fetch.Fits := by
  obtain ⟨w, hw, rfl⟩ := exists_of_map_eq_ok h
  -- the settings for fetching were read, or the built-in ones stand for them
  obtain ⟨_, -, hgives | hstands⟩ := gives_field (by simp) (gives_of_parse hw)
    (List.mem_cons_of_mem _ (List.mem_cons_of_mem _ List.mem_cons_self))
  · exact Fetch.Settings.fits_of_gives hgives
  · have hdefault : w.field "fetch" = Configuration.default.fetch.toJson := hstands
    rw [ofNormal, hdefault, Fetch.Settings.ofNormal_toJson]
    exact fits_default

theorem fits_of_loadFrom {tree : FileTree} {working : List String} {path : String}
    {c : Configuration} (h : loadFrom tree working path = .ok c) : c.fetch.Fits := by
  unfold loadFrom at h
  split at h
  · cases h
  · split at h
    · cases h
    · split at h
      · cases h
      · split at h
        · cases h
        · next hparse =>
          cases h
          exact fits_of_parse hparse

/-- What was saved is loaded from the same path. -/
theorem loadFrom_of_saveTo {tree tree' : FileTree} {working : List String} {path : String}
    {c : Configuration} (hfits : c.fetch.Fits) (h : c.saveTo tree working path = .ok tree') :
    loadFrom tree' working path = .ok c := by
  unfold saveTo at h
  split at h
  · cases h
  · split at h
    · cases h
    · next hwrite =>
      cases h
      have hcontains := FileTree.contains_write hwrite
      have hread := FileTree.read_write hwrite
      rw [loadFrom, hcontains, hread]
      simp only [Bool.not_true, Bool.false_eq_true, if_false, Text.decode_toUTF8, parse_text hfits]

/-- **Loading is the inverse of saving.** A configuration whose numbers are
of 64 bits is loaded from the file to which it was saved, whatever the
tree of files was; and a configuration that was loaded from any file may
be saved anywhere and is loaded again. -/
theorem loadFrom_saveTo :
    (∀ (c : Configuration) (tree tree' : FileTree) (working : List String) (path : String),
      c.fetch.timeoutSeconds < 2 ^ 64 → c.fetch.leastLength < 2 ^ 64 →
        c.saveTo tree working path = .ok tree' → loadFrom tree' working path = .ok c) ∧
    (∀ (c : Configuration) (source tree tree' : FileTree) (home working : List String)
      (from_ path : String), loadFrom source home from_ = .ok c →
        c.saveTo tree working path = .ok tree' → loadFrom tree' working path = .ok c) := by
  refine ⟨fun c tree tree' working path htimeout hleast hsave => ?_,
    fun c source tree tree' home working from_ path hload hsave => ?_⟩
  · exact loadFrom_of_saveTo ⟨Nat.le_sub_one_of_lt htimeout, Nat.le_sub_one_of_lt hleast⟩ hsave
  · exact loadFrom_of_saveTo (fits_of_loadFrom hload) hsave

/-- A configuration with texts of all sorts and empty tables, saved where a
directory has to be made. -/
def sample : Configuration where
  managers := [⟨"q\"", "back\\slash", "line\nbreak \x01 🦀", "", "(a)"⟩]
  tools := []
  fetch := ⟨0, 18446744073709551615, [.direct, .relay "" "http://r/" .jsonContents true], []⟩

theorem loadFrom_saveTo_sample :
    ∃ tree tree', sample.saveTo ⟨[]⟩ [] "/etc/x/config.json" = .ok tree ∧
      loadFrom tree [] "/etc/x/config.json" = .ok sample ∧
      sample.saveTo tree [] "/etc/y.json" = .ok tree' ∧
      loadFrom tree' [] "/etc/y.json" = .ok sample := by
  have hsave : sample.saveTo ⟨[]⟩ [] "/etc/x/config.json" =
      .ok ⟨[(["etc", "x", "config.json"], .file sample.text.toUTF8), (["etc", "x"], .directory),
        (["etc"], .directory)]⟩ := by
    rfl
  have hload := loadFrom_saveTo.1 _ _ _ _ _ (by decide) (by decide) hsave
  have hagain : sample.saveTo ⟨[(["etc", "x", "config.json"], .file sample.text.toUTF8),
        (["etc", "x"], .directory), (["etc"], .directory)]⟩ [] "/etc/y.json" =
      .ok ⟨[(["etc", "y.json"], .file sample.text.toUTF8),
        (["etc", "x", "config.json"], .file sample.text.toUTF8), (["etc", "x"], .directory),
        (["etc"], .directory)]⟩ := by
    rfl
  exact ⟨_, _, hsave, hload, hagain, loadFrom_saveTo.2 _ _ _ _ _ _ _ _ hload hagain⟩

end Configuration

end ShellPreview
