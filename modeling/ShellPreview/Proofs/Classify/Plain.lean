import ShellPreview.Proofs.Classify.WellFormed
import ShellPreview.Proofs.Link.Segments
import ShellPreview.Proofs.Registry.Builtin
import ShellPreview.Proofs.Text.Parts
/-!
# Classifying — a tool with a link

A command of two words, a tool and a link, has no word of a package manager
and begins with no word of a programming tool. But PowerShell's family
looks for its words in all of a command, and its turn comes before those of
curl and wget: if the link has such a word in it, the command is taken for
one of PowerShell (`classify_plain_download`).
-/

namespace ShellPreview

/-- Two words without blanks at their ends are as they are trimmed. -/
theorem Text.trim_two_words {v w : List Char} (hv : IsWord v) (hw : IsWord w) :
    trim (v ++ ' ' :: w) = v ++ ' ' :: w := by
  obtain ⟨c, cs, rfl⟩ := List.exists_cons_of_ne_nil hv.1
  obtain ⟨front, last, rfl⟩ := (List.eq_nil_or_concat' w).resolve_left hw.1
  have hfirst : isBlank c = false := hv.2 c List.mem_cons_self
  have hlast : isBlank last = false := hw.2 last (List.mem_append_right front List.mem_cons_self)
  have hstart : trimStart (c :: cs ++ ' ' :: (front ++ [last])) =
      c :: cs ++ ' ' :: (front ++ [last]) :=
    List.dropWhile_cons_of_neg (by simp [hfirst])
  have hcut : c :: cs ++ ' ' :: (front ++ [last]) = (c :: cs ++ ' ' :: front) ++ last :: [] := by
    simp
  rw [trim, hstart, hcut, trimEnd_append_cons hlast]
  rfl

/-- A command that gives a link to a tool, and nothing else. -/
structure Plain (tool link command : List Char) : Prop where
  text : command = tool ++ ' ' :: link
  tool_mem : tool ∈ ["curl".toList, "wget".toList]
  opens : Link.Opens link
  noStop : ∀ c ∈ link, Link.isCommandStop c = false

namespace Plain

variable {tool link : List Char} {command : String} {r : Registry}

theorem isWord_tool (h : Plain tool link command.toList) : Text.IsWord tool := by
  have hwords : ∀ tool ∈ ["curl".toList, "wget".toList], Text.IsWord tool := by decide
  exact hwords tool h.tool_mem

theorem isWord_link (h : Plain tool link command.toList) : Text.IsWord link :=
  Link.isWord_of_opens h.opens h.noStop

theorem trimmed_eq (h : Plain tool link command.toList) : Text.trimmed command = command := by
  rw [Text.trimmed, h.text, Text.trim_two_words h.isWord_tool h.isWord_link, ← h.text,
    String.ofList_toList]

theorem words_eq (h : Plain tool link command.toList) :
    Text.words command.toList = [tool, link] := by
  have hspace : Text.isBlank ' ' = true := rfl
  rw [h.text, Text.words_append_cons hspace, h.isWord_tool.words_eq, h.isWord_link.words_eq]
  rfl

/-! ## The families in front -/

/-- Neither of the words is that of a package manager, -/
theorem managerFor_eq_none (h : Plain tool link command.toList)
    (hr : Configuration.default.tables = .ok r) : r.managerFor command = none := by
  have htools : ∀ m ∈ Registry.defaultManagers,
      m.token.toList ∉ ["curl".toList, "wget".toList] := by decide
  have hlinks : ∀ m ∈ Registry.defaultManagers, ¬Link.Opens m.token.toList := by decide
  rcases hm : r.managerFor command with - | i
  · rfl
  have hmem := Registry.mem_default_of_mem hr (Registry.serves_of_managerFor hm).1
  have hword := Registry.token_mem_words hr hm
  rw [h.words_eq] at hword
  rcases List.mem_pair.mp hword with heq | heq
  · exact absurd (heq ▸ h.tool_mem) (htools _ hmem)
  · exact absurd (heq ▸ h.opens) (hlinks _ hmem)

/-- and no word of a programming tool begins as the tool does. -/
theorem toolFor_eq_none (h : Plain tool link command.toList)
    (hr : Configuration.default.tables = .ok r) : r.toolFor command = none := by
  have hheads : ∀ t ∈ Registry.defaultTools, ∀ tool ∈ ["curl".toList, "wget".toList],
      t.token.toList ≠ [] ∧ t.token.toList.head? ≠ tool.head? := by decide
  have hdefault : r.tools = Registry.defaultTools := Configuration.tools_of_tables hr
  refine List.find?_eq_none.mpr fun t ht hserves => ?_
  rw [hdefault] at ht
  obtain ⟨hne, hhead⟩ := hheads t ht tool h.tool_mem
  have hfront : t.token.toList <+: command.toList := by
    rw [Tool.serves, Bool.or_eq_true, beq_iff_eq, Text.begins_iff, String.toList_append] at hserves
    rcases hserves with rfl | hbegins
    · exact List.prefix_refl _
    · exact (List.prefix_append _ _).trans hbegins
  obtain ⟨rest, hrest⟩ := hfront
  have hsame : command.toList.head? = tool.head? := by
    rw [h.text, List.head?_append_of_ne_nil _ h.isWord_tool.1]
  rw [← hrest, List.head?_append_of_ne_nil _ hne] at hsame
  exact hhead hsame

/-- A command of wget does not begin as one of curl does. -/
theorem not_begins_curl (h : Plain "wget".toList link command.toList) :
    Text.begins command "curl" = false := by
  refine Bool.eq_false_iff.mpr fun hbegins => ?_
  have hcurl := Text.begins_iff.mp hbegins
  have hwget : "wget".toList <+: command.toList := h.text ▸ List.prefix_append _ _
  have hsame : "curl".toList <+: "wget".toList :=
    List.prefix_of_prefix_length_le hcurl hwget (by decide)
  exact absurd hsame (by decide)

/-- A word of PowerShell stands in the command if it stands in the link. -/
theorem any_webRequestWords_iff (h : Plain tool link command.toList) :
    Family.webRequestWords.any (Text.holds command) = true ↔
      ∃ w ∈ Family.webRequestWords, w.toList <:+: link := by
  have hcut : ∀ w ∈ Family.webRequestWords, ¬[' ', 'h'] <:+: w.toList := by decide
  have hfront : ∀ w ∈ Family.webRequestWords, ∀ tool ∈ ["curl".toList, "wget".toList],
      ¬w.toList <:+: tool ++ [' '] := by decide
  obtain ⟨rest, hlink⟩ := Link.exists_eq_cons_of_opens h.opens
  rw [List.any_eq_true]
  refine exists_congr fun w => and_congr_right fun hw => ?_
  rw [Text.holds_iff, h.text, List.append_cons, hlink, Text.infix_cut_iff (hcut w hw)]
  exact or_iff_right (hfront w hw tool h.tool_mem)

end Plain

namespace Classifier

variable {r : Registry} {link : List Char} {command : String} {family : Family}

/-- **PowerShell's family is the first to know a tool with a link**, if one
of its words stands in the link; else it is the family of the tool. -/
theorem firstMatch_plain (hr : Configuration.default.tables = .ok r) (fetcher : Fetch.Fetcher)
    (hfamily : family = .curl ∨ family = .wget)
    (h : Plain family.name.toList link command.toList) :
    ∃ front a, (standard r fetcher).FirstMatch command front
      (if ∃ w ∈ Family.webRequestWords, w.toList <:+: link then .powerShell else family) a := by
  have hmanager : (Family.packageManager.recognize r fetcher command).value = none := by
    simp [Family.recognize, h.managerFor_eq_none hr]
  have htool : (Family.programmingTool.recognize r fetcher command).value = none := by
    simp [Family.recognize, h.toolFor_eq_none hr]
  have hbegins : Text.begins command family.name = true := by
    rw [Text.begins_iff, h.text]
    exact List.prefix_append _ _
  split
  · next hwords =>
    have htells : Family.Tells r fetcher command .powerShell _ :=
      .powerShell (h.any_webRequestWords_iff.mpr hwords)
    refine ⟨[.packageManager, .programmingTool], _, ⟨_, rfl⟩, ?_, htells.recognize_eq.1⟩
    simp [standard, hmanager, htool]
  · next hwords =>
    have hnone : Family.webRequestWords.any (Text.holds command) = false :=
      Bool.eq_false_iff.mpr fun hany => hwords (h.any_webRequestWords_iff.mp hany)
    have hpower : (Family.powerShell.recognize r fetcher command).value = none := by
      simp [Family.recognize, hnone]
    rcases hfamily with rfl | rfl
    · have htells : Family.Tells r fetcher command .curl _ := .curl hbegins
      refine ⟨[.packageManager, .programmingTool, .powerShell], _, ⟨_, rfl⟩, ?_,
        htells.recognize_eq.1⟩
      simp [standard, hmanager, htool, hpower]
    · have htells : Family.Tells r fetcher command .wget _ := .wget hbegins
      have hcurl : (Family.curl.recognize r fetcher command).value = none := by
        simp [Family.recognize, h.not_begins_curl]
      refine ⟨[.packageManager, .programmingTool, .powerShell, .curl], _, ⟨_, rfl⟩, ?_,
        htells.recognize_eq.1⟩
      simp [standard, hmanager, htool, hpower, hcurl]

/-- So the kind is PowerShell's, or that of the tool. -/
theorem kind_plain (hr : Configuration.default.tables = .ok r) (fetcher : Fetch.Fetcher)
    (hfamily : family = .curl ∨ family = .wget)
    (h : Plain family.name.toList link command.toList) :
    ((standard r fetcher).classify command).value.kind =
      if ∃ w ∈ Family.webRequestWords, w.toList <:+: link then Family.powerShell.downloadKind
      else family.downloadKind := by
  obtain ⟨front, a, hfirst⟩ := firstMatch_plain hr fetcher hfamily h
  obtain ⟨x, hx, rfl⟩ := hfirst.tells
  have hdownloads : family.downloads = true := by
    rcases hfamily with rfl | rfl <;> rfl
  rw [← h.trimmed_eq] at hfirst
  rw [(classify_of_firstMatch hfirst).1, Analysis.kind_warn]
  split
  · next hwords =>
    rw [if_pos hwords] at hx
    exact hx.kind_eq rfl
  · next hwords =>
    rw [if_neg hwords] at hx
    exact hx.kind_eq hdownloads

/-- **A plain download is one of its tool, unless the link has a word of
PowerShell in it.** With the built-in tables and all families in their
order, a command of curl and a link, or of wget and a link, is of the kind
of the tool if none of PowerShell's four words stands in the link; else it
is of PowerShell's kind. So no other family takes it, whatever the link
is. -/
theorem classify_plain_download (hr : Configuration.default.tables = .ok r)
    (fetcher : Fetch.Fetcher) {u : String} (hopens : Link.Opens u.toList)
    (hu : ∀ c ∈ u.toList, Link.isCommandStop c = false) :
    (((standard r fetcher).classify ("curl " ++ u)).value.kind =
      if ∃ w ∈ Family.webRequestWords, w.toList <:+: u.toList then "PowerShell - Web Request"
      else "cURL - HTTP Download") ∧
    (((standard r fetcher).classify ("wget " ++ u)).value.kind =
      if ∃ w ∈ Family.webRequestWords, w.toList <:+: u.toList then "PowerShell - Web Request"
      else "wget - File Download") := by
  have hcurl : Plain Family.curl.name.toList u.toList ("curl " ++ u).toList :=
    ⟨String.toList_append, List.mem_cons_self, hopens, hu⟩
  have hwget : Plain Family.wget.name.toList u.toList ("wget " ++ u).toList :=
    ⟨String.toList_append, List.mem_cons_of_mem _ (List.mem_singleton_self _), hopens, hu⟩
  exact ⟨kind_plain hr fetcher (.inl rfl) hcurl, kind_plain hr fetcher (.inr rfl) hwget⟩

/-- An installer, and a file whose name has a word of PowerShell in it. -/
theorem classify_plain_download_samples : ∃ r, Configuration.default.tables = .ok r ∧
    ((standard r ⟨.offline, .default, 0⟩).classify
      ("curl " ++ "https://example.com/install.sh")).value.kind = "cURL - HTTP Download" ∧
    ((standard r ⟨.offline, .default, 0⟩).classify
      ("wget " ++ "https://example.com/confirm.sh")).value.kind = "PowerShell - Web Request" := by
  obtain ⟨r, hr⟩ := Registry.exists_builtin
  have hinstall := (classify_plain_download hr ⟨.offline, .default, 0⟩
    (u := "https://example.com/install.sh") (by decide) (Text.forall_of_all_not (by decide))).1
  have hconfirm := (classify_plain_download hr ⟨.offline, .default, 0⟩
    (u := "https://example.com/confirm.sh") (by decide) (Text.forall_of_all_not (by decide))).2
  rw [if_neg (by decide)] at hinstall
  rw [if_pos (by decide)] at hconfirm
  exact ⟨r, hr, hinstall, hconfirm⟩

/-- The letters `irm` in the name of a file make a download of curl one of
PowerShell. -/
theorem firmware_for_powerShell : ∃ r, Configuration.default.tables = .ok r ∧
    Link.Opens "https://example.com/firmware.bin".toList ∧
    (∀ c ∈ "https://example.com/firmware.bin".toList, Link.isCommandStop c = false) ∧
    ∀ fetcher, ((standard r fetcher).classify
      ("curl " ++ "https://example.com/firmware.bin")).value.kind ≠ "cURL - HTTP Download" := by
  obtain ⟨r, hr⟩ := Registry.exists_builtin
  have hstops : ∀ c ∈ "https://example.com/firmware.bin".toList, Link.isCommandStop c = false :=
    Text.forall_of_all_not (by decide)
  have hopens : Link.Opens "https://example.com/firmware.bin".toList := by decide
  have hplain : Plain Family.curl.name.toList "https://example.com/firmware.bin".toList
      ("curl " ++ "https://example.com/firmware.bin").toList :=
    ⟨String.toList_append, List.mem_cons_self, hopens, hstops⟩
  refine ⟨r, hr, hopens, hstops, fun fetcher => ?_⟩
  rw [kind_plain hr fetcher (.inl rfl) hplain, if_pos (by decide)]
  decide

end Classifier

end ShellPreview
