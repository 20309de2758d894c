import ShellPreview.Proofs.Configuration.Loading
import ShellPreview.Proofs.Configuration.RoundTrip
import ShellPreview.Proofs.Json.Grammar
/-!
# A configuration that is told in part

A file may tell some fields of a configuration and leave out others, among
the fields at the top and among the settings for fetching. What is loaded
has the fields that are told and, for all others, the built-in ones.
-/

namespace ShellPreview

open Json

namespace Configuration

/-- **A text that tells a configuration in part is read as its overlay.** -/
theorem Told.parse_eq {c : Configuration} {p : Parts} {v : Json} {text : String} (h : c.Told p v)
    (hwrites : Writes v text) : parse text = .ok (c.overlay p) := by
  obtain ⟨hnests, bs, cs, bs', hbs, hcs, hbs', htext⟩ := hwrites
  have hread := Schema.parse_eq hnests (h.acceptAt false) hbs hcs hbs'
  rw [← htext, String.ofList_toList] at hread
  rw [parse, hread]
  exact congrArg Except.ok (ofNormal_toJson _)

/-- **A file that tells some fields of a configuration is loaded as the
configuration with these fields**, and with the built-in ones for all
others, at the top and among the settings for fetching. The fields may
stand in any order, also among members with other keys and whatever
values, and the text may write them in any way. -/
theorem loadFrom_partial {c : Configuration} {p : Parts} {v : Json} {text path : String}
    {tree : FileTree} {working : List String} (htold : c.Told p v) (hwrites : Writes v text)
    (hread : tree.read working path = .ok text.toUTF8) :
    loadFrom tree working path = .ok (c.overlay p) :=
  loadFrom_eq_ok_iff.mpr ⟨text, hread, htold.parse_eq hwrites⟩

/-- Some settings and a table, out of order and among other members; the
kind of a way comes last, and one of its fields is left out. -/
def scattered : Json :=
  .object [("later", .list [.nat 1, .object [("x", .null)]]),
    ("fetch", .object [("routes", .list [.object [("name", .text "r"), ("format", .text "raw"),
        ("prefix", .text "http://r/"), ("why", .null), ("kind", .text "relay")]]),
      ("minContentLength", .nat 7)]),
    ("programmingTools", .list []), ("later", .flag true)]

theorem loadFrom_partial_scattered :
    loadFrom ⟨[(["c.json"], .file scattered.compact.toUTF8)]⟩ [] "/c.json" =
      .ok ⟨Configuration.default.managers, [], ⟨Fetch.Settings.default.timeoutSeconds, 7,
        [.relay "r" "http://r/" .raw false], Fetch.Settings.default.shortcuts⟩⟩ := by
  have hroute : Fetch.Route.Told (.relay "r" "http://r/" .raw false)
      (.object [("name", .text "r"), ("format", .text "raw"), ("prefix", .text "http://r/"),
        ("why", .null), ("kind", .text "relay")]) :=
    ⟨_, rfl, rfl, rfl, rfl, rfl, .inr ⟨rfl, rfl⟩⟩
  have hnests : Nests 5 scattered := by simp [scattered, Nests.null]
  have hone : (Numeral.whole 1).ReadsBack := Numeral.readsBack_nat (n := 1) (by decide)
  have hseven : (Numeral.whole 7).ReadsBack := Numeral.readsBack_nat (n := 7) (by decide)
  have hwrites : Writes scattered scattered.compact :=
    writes_compact (hnests.mono (by decide)) (by simp [scattered, Numbers.null, hone, hseven])
  refine loadFrom_partial (c := ⟨[], [], ⟨0, 7, [.relay "r" "http://r/" .raw false], []⟩⟩)
    (p := ⟨false, true, true, false, true, true, false⟩) ?_ hwrites rfl
  refine ⟨_, rfl, .of_none rfl, .of_given rfl ⟨_, rfl, .nil⟩, .of_given rfl ?_⟩
  exact ⟨_, rfl, .of_none rfl, .of_given rfl rfl,
    .of_given rfl ⟨_, rfl, .cons hroute .nil⟩, .of_none rfl⟩

end Configuration

end ShellPreview
