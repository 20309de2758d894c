import ShellPreview.Fetch.Placeholder
import ShellPreview.Proofs.Text.Lines
import ShellPreview.Proofs.Text.Words
/-!
# Fetching — what a placeholder may hold

A placeholder is a script that is to do nothing but write one text: all of
its lines but the last are remarks (`Inert`). What it takes over from a
failure and from the settings stands behind a `#` or between quotes, and is
taken over as it is. So a placeholder is inert exactly if the further lines
of these texts are remarks themselves, and a title is on one line and has
no quote (`inert_placeholder`). A note with two lines, or a title with
quotes, puts something else there (`placeholder_not_inert`).
-/

namespace ShellPreview.Fetch

open Text

/-- What begins a line that writes a text. -/
def writeMark : List Char :=
  "Write-Host \"".toList

/-- A line that writes a text. -/
def writeLine (text : List Char) : List Char :=
  writeMark ++ (text ++ ['"'])

/-- A script that does nothing but write a text: remarks, and at the end a
line that writes a text without a quote. -/
def Inert (isBreak : Char → Bool) (script : List Char) : Prop :=
  ∃ remarks text, lines isBreak script = remarks ++ [writeLine text] ∧
    (∀ line ∈ remarks, IsRemark line) ∧ '"' ∉ text

variable {isBreak : Char → Bool}

/-! ## Remarks with a line that writes -/

section Script

variable {script : List String} {text : List Char}

theorem writeLine_injective : Function.Injective writeLine := by
  intro a b hab
  exact List.append_cancel_right (List.append_cancel_left hab)

theorem unbroken_writeMark (h : LineBreak isBreak) : Unbroken isBreak writeMark :=
  h.unbroken (by decide)

theorem unbroken_quote (h : LineBreak isBreak) : Unbroken isBreak ['"'] :=
  h.unbroken (by decide)

theorem unbroken_writeLine (h : LineBreak isBreak) (htext : Unbroken isBreak text) :
    Unbroken isBreak (writeLine text) :=
  unbroken_append_iff.mpr ⟨unbroken_writeMark h,
    unbroken_append_iff.mpr ⟨htext, unbroken_quote h⟩⟩

/-- A text that is broken leaves a first line that is no remark, and a line
behind it. -/
theorem exists_lines_writeLine (h : LineBreak isBreak) (htext : ¬Unbroken isBreak text) :
    ∃ line more last, lines isBreak (writeLine text) = line :: more ++ [last] ∧
      ¬IsRemark line := by
  induction text using segment_induction isBreak with
  | last segment hsegment => exact absurd hsegment htext
  | more segment c cs hsegment hc =>
    obtain ⟨more, last, -, hmore⟩ := lines_append_unbroken (unbroken_quote h) cs
    have hfirst : Unbroken isBreak (writeMark ++ segment) :=
      unbroken_append_iff.mpr ⟨unbroken_writeMark h, hsegment⟩
    have hline : writeLine (segment ++ c :: cs) = writeMark ++ segment ++ c :: (cs ++ ['"']) := by
      rw [writeLine, List.append_assoc, List.cons_append, List.append_assoc]
    refine ⟨writeMark ++ segment, more, last ++ ['"'], ?_, ?_⟩
    · rw [hline, lines_segment_cons hfirst hc, hmore, List.cons_append]
    · intro hremark
      have hhead : 'W' = '#' := hremark 'W' rfl
      revert hhead
      decide

/-- A script has the lines of its texts. -/
theorem lines_script (h : LineBreak isBreak) (hne : script ≠ []) :
    lines isBreak ("\n".intercalate script).toList =
      script.flatMap fun t => lines isBreak t.toList := by
  have htexts : script.map String.toList ≠ [] := by
    rwa [ne_eq, List.map_eq_nil_iff]
  rw [String.toList_intercalate]
  refine (lines_intercalate h.feed htexts).trans ?_
  rw [List.flatMap_map]

/-- **A script of lines that ends with a line that writes** is inert if the
lines in front are remarks, and the text is on one line and has no quote. -/
theorem inert_iff (h : LineBreak isBreak) {last : String} (hlast : script.getLast? = some last)
    (hwrite : last.toList = writeLine text) :
    Inert isBreak ("\n".intercalate script).toList ↔
      (∀ t ∈ script.dropLast, Remarks isBreak t.toList) ∧ Unbroken isBreak text ∧
        '"' ∉ text := by
  obtain ⟨front, rfl⟩ := List.getLast?_eq_some_iff.mp hlast
  have hlines : lines isBreak ("\n".intercalate (front ++ [last])).toList =
      front.flatMap (fun t => lines isBreak t.toList) ++ lines isBreak (writeLine text) := by
    rw [lines_script h (List.append_ne_nil_of_right_ne_nil front (List.cons_ne_nil _ _)),
      List.flatMap_append, List.flatMap_singleton, hwrite]
  have hfront : (∀ line ∈ front.flatMap fun t => lines isBreak t.toList, IsRemark line) ↔
      ∀ t ∈ front, Remarks isBreak t.toList :=
    List.forall_mem_flatMap
  rw [Inert, hlines, List.dropLast_concat]
  constructor
  · rintro ⟨remarks, written, heq, hremarks, hquote⟩
    by_cases htext : Unbroken isBreak text
    · rw [lines_of_unbroken (unbroken_writeLine h htext)] at heq
      obtain ⟨rfl, hsame⟩ := List.append_inj' heq rfl
      obtain rfl := writeLine_injective (List.singleton_inj.mp hsame)
      exact ⟨hfront.mp hremarks, htext, hquote⟩
    -- a break in the text leaves its first line among the remarks
    · obtain ⟨line, more, last, hbroken, hline⟩ := exists_lines_writeLine h htext
      rw [hbroken, ← List.append_assoc] at heq
      obtain ⟨rfl, -⟩ := List.append_inj' heq rfl
      exact absurd (hremarks line (List.mem_append_right _ List.mem_cons_self)) hline
  · rintro ⟨hremarks, htext, hquote⟩
    rw [lines_of_unbroken (unbroken_writeLine h htext)]
    exact ⟨_, text, rfl, hfront.mpr hremarks, hquote⟩

/-- A line that is a remark whatever is in the failure. -/
theorem remarks_fixed (h : LineBreak isBreak) {t : String}
    (ht : t.toList.all staysInLine = true) (hremark : IsRemark t.toList) :
    Remarks isBreak t.toList :=
  (remarks_of_unbroken (h.unbroken ht)).mpr hremark

/-- A text behind the mark of a remark. -/
theorem remarks_marked_iff (h : LineBreak isBreak) {mark : String}
    (hmark : mark.toList.all staysInLine = true) (hhead : mark.toList.head? = some '#')
    (t : String) : Remarks isBreak (mark ++ t).toList ↔ FurtherRemarks isBreak t.toList := by
  rw [String.toList_append]
  exact remarks_append_iff (h.unbroken hmark) hhead _

/-- A line that is there unless something holds. -/
theorem forall_mem_unless_iff {p : Prop} [Decidable p] {P : String → Prop} {t : String} :
    (∀ x ∈ if p then [] else [t], P x) ↔ (¬p → P t) := by
  by_cases hp : p
  · rw [if_pos hp]
    exact iff_of_true (List.forall_mem_nil _) (absurd hp)
  · rw [if_neg hp, List.forall_mem_singleton]
    exact (imp_iff_right hp).symm

/-- A list that is shown under a heading, if there is something in it. -/
theorem forall_mem_headed_iff {α : Type} {P : String → Prop} {heading : List String}
    (h : ∀ t ∈ heading, P t) (xs : List α) (g : α → String) :
    (∀ t ∈ if xs.isEmpty then [] else heading ++ xs.map g, P t) ↔ ∀ x ∈ xs, P (g x) := by
  cases xs with
  | nil => exact iff_of_true (List.forall_mem_nil _) (List.forall_mem_nil _)
  | cons x xs =>
    rw [if_neg (by simp), List.forall_mem_append, and_iff_right h, List.forall_mem_map]

end Script

/-! ## What is taken over -/

/-- The texts in a reason. -/
def Error.texts : Error → List String
  | .transport message | .invalidJson message => [message]
  | _ => []

/-- The texts that a placeholder may take over. -/
def Failure.texts (f : Failure) (settings : Settings) : List String :=
  f.requestedUrl :: f.resolvedUrl ::
    (f.attempts.flatMap (fun a => a.route :: a.error.texts) ++
      (settings.shortcutFor f.requestedUrl).toList.flatMap fun c =>
        c.title :: c.finalUrl :: c.notes)

/-- What is taken over stays in the remarks, and a title in its quotes. The
requested URL is also taken over in front of the rest of a line. -/
def Failure.KeepsToRemarks (isBreak : Char → Bool) (f : Failure) (settings : Settings) : Prop :=
  match settings.shortcutFor f.requestedUrl with
  | some c =>
    (∀ t ∈ f.requestedUrl :: c.finalUrl :: c.notes, FurtherRemarks isBreak t.toList) ∧
      Unbroken isBreak c.title.toList ∧ '"' ∉ c.title.toList
  | none =>
    FurtherRemarks isBreak (f.requestedUrl ++ "\" | iex").toList ∧
      ∀ t ∈ f.resolvedUrl :: f.attempts.map Attempt.text, FurtherRemarks isBreak t.toList

variable {f : Failure} {settings : Settings}

/-- The lines for a shortcut but the last one are remarks if the further
lines of what they take over are. -/
theorem remarks_shortcutLines_iff (h : LineBreak isBreak) (c : Shortcut) :
    (∀ t ∈ (shortcutLines f c).dropLast, Remarks isBreak t.toList) ↔
      ∀ t ∈ c.title :: f.requestedUrl :: c.finalUrl :: c.notes,
        FurtherRemarks isBreak t.toList := by
  have hheading : ∀ t ∈ ["", "# Known details about this script:"], Remarks isBreak t.toList :=
    List.forall_mem_cons.mpr ⟨remarks_fixed h (by decide) (by decide),
      List.forall_mem_singleton.mpr (remarks_fixed h (by decide) (by decide))⟩
  rw [shortcutLines, List.dropLast_append_of_ne_nil (List.cons_ne_nil _ _)]
  simp (disch := decide) only [List.dropLast, List.forall_mem_append, List.forall_mem_cons,
    forall_mem_headed_iff hheading, remarks_fixed h, remarks_marked_iff h, List.not_mem_nil,
    false_implies, implies_true, and_true, true_and, and_assoc]

/-- The lines for any other document but the last one are. -/
theorem remarks_generalLines_iff (h : LineBreak isBreak) :
    (∀ t ∈ (generalLines f).dropLast, Remarks isBreak t.toList) ↔
      FurtherRemarks isBreak (f.requestedUrl ++ "\" | iex").toList ∧
        ∀ t ∈ f.resolvedUrl :: f.attempts.map Attempt.text, FurtherRemarks isBreak t.toList := by
  have hheading : ∀ t ∈ ["", "# Attempts:"], Remarks isBreak t.toList :=
    List.forall_mem_cons.mpr ⟨remarks_fixed h (by decide) (by decide),
      List.forall_mem_singleton.mpr (remarks_fixed h (by decide) (by decide))⟩
  have hrequested : FurtherRemarks isBreak (f.requestedUrl ++ "\" | iex").toList →
      FurtherRemarks isBreak f.requestedUrl.toList := by
    rw [String.toList_append]
    exact FurtherRemarks.of_append (h.unbroken (by decide))
  rw [generalLines, List.dropLast_append_of_ne_nil (List.cons_ne_nil _ _)]
  simp (disch := decide) only [List.dropLast, List.forall_mem_append, List.forall_mem_cons,
    forall_mem_unless_iff, forall_mem_headed_iff hheading, remarks_fixed h,
    remarks_marked_iff h, List.forall_mem_map, String.append_assoc, List.not_mem_nil,
    false_implies, implies_true, and_true, true_and]
  constructor
  · rintro ⟨⟨⟨hurl, hres⟩, hattempts⟩, hiex⟩
    refine ⟨hiex, ?_, hattempts⟩
    by_cases hsame : f.resolvedUrl = f.requestedUrl
    · rw [hsame]
      exact hurl
    · exact hres hsame
  · rintro ⟨hiex, hres, hattempts⟩
    exact ⟨⟨⟨hrequested hiex, fun _ => hres⟩, hattempts⟩, hiex⟩

/-- What is behind a title in the text that is written. -/
def titleEnd : List Char :=
  " - Content not available for preview".toList

/-- **A placeholder is inert** exactly if what it takes over keeps to the
remarks. -/
theorem inert_placeholder_iff (h : LineBreak isBreak) :
    Inert isBreak (f.placeholder settings).toList ↔ f.KeepsToRemarks isBreak settings := by
  cases hfor : settings.shortcutFor f.requestedUrl with
  | some c =>
    have hlast : (shortcutLines f c).getLast? =
        some ("Write-Host \"" ++ c.title ++ " - Content not available for preview\"") := by
      rw [shortcutLines, List.getLast?_append]
      rfl
    have hwrite : ("Write-Host \"" ++ c.title ++ " - Content not available for preview\"").toList =
        writeLine (c.title.toList ++ titleEnd) := by
      have hend : " - Content not available for preview\"".toList = titleEnd ++ ['"'] := by decide
      rw [String.toList_append, String.toList_append, hend, List.append_assoc,
        ← List.append_assoc c.title.toList]
      rfl
    have hunbroken : Unbroken isBreak (c.title.toList ++ titleEnd) ↔
        Unbroken isBreak c.title.toList := by
      rw [unbroken_append_iff, and_iff_left (h.unbroken (by decide))]
    have hquote : '"' ∉ c.title.toList ++ titleEnd ↔ '"' ∉ c.title.toList := by
      rw [List.mem_append, or_iff_left (by decide)]
    rw [Failure.placeholder, Failure.KeepsToRemarks, hfor]
    dsimp only
    rw [inert_iff h hlast hwrite, remarks_shortcutLines_iff h, List.forall_mem_cons, hunbroken,
      hquote]
    constructor
    · rintro ⟨⟨-, hothers⟩, htitle⟩
      exact ⟨hothers, htitle⟩
    · rintro ⟨hothers, htitle⟩
      exact ⟨⟨furtherRemarks_of_unbroken htitle.1, hothers⟩, htitle⟩
  | none =>
    have hlast : (generalLines f).getLast? =
        some "Write-Host \"Script content not available for preview - download failed\"" := by
      rw [generalLines, List.getLast?_append]
      rfl
    have hwrite :
        "Write-Host \"Script content not available for preview - download failed\"".toList =
          writeLine "Script content not available for preview - download failed".toList := by
      decide
    rw [Failure.placeholder, Failure.KeepsToRemarks, hfor]
    dsimp only
    rw [inert_iff h hlast hwrite, remarks_generalLines_iff h]
    exact and_iff_left ⟨h.unbroken (by decide), by decide⟩

/-! ## Texts on one line -/

theorem unbroken_of_digits (h : LineBreak isBreak) {cs : List Char}
    (hcs : ∀ c ∈ cs, c.isDigit = true) : Unbroken isBreak cs := by
  intro c hc
  have hsolid : isBlank c = false := isBlank_of_isDigit (hcs c hc)
  exact h.eq_false (by rw [staysInLine, hsolid, Bool.not_false, Bool.or_true])

theorem isDigit_of_mem_repr {n : ℕ} {c : Char} (hc : c ∈ (Nat.repr n).toList) :
    c.isDigit = true := by
  rw [Nat.toList_repr] at hc
  exact Nat.isDigit_of_mem_toDigits (by decide) (by decide) hc

theorem unbroken_repr (h : LineBreak isBreak) (n : ℕ) : Unbroken isBreak (Nat.repr n).toList :=
  unbroken_of_digits h fun _ => isDigit_of_mem_repr

theorem unbroken_fractionText (h : LineBreak isBreak) (n width : ℕ) :
    Unbroken isBreak (Number.fractionText n width).toList := by
  have hdigits : ∀ c ∈ List.replicate (width - (Nat.toDigits 10 n).length) '0' ++
      Nat.toDigits 10 n, c.isDigit = true := by
    intro c hc
    rcases List.mem_append.mp hc with hc | hc
    · rw [List.eq_of_mem_replicate hc]
      rfl
    · exact Nat.isDigit_of_mem_toDigits (by decide) (by decide) hc
  rw [Number.fractionText]
  split
  · exact List.forall_mem_nil _
  · rw [String.toList_append, unbroken_append_iff]
    refine ⟨h.unbroken (by decide), unbroken_of_digits h fun c hc => hdigits c ?_⟩
    rw [String.toList_ofList, List.mem_reverse] at hc
    exact List.mem_reverse.mp ((List.dropWhile_suffix _).subset hc)

theorem unbroken_inUnit (h : LineBreak isBreak) (ns width : ℕ) :
    Unbroken isBreak (Number.inUnit ns width).toList := by
  rw [Number.inUnit, String.toList_append]
  exact unbroken_append_iff.mpr ⟨unbroken_repr h _, unbroken_fractionText h _ _⟩

theorem unbroken_durationText (h : LineBreak isBreak) (ns : ℕ) :
    Unbroken isBreak (Number.durationText ns).toList := by
  have hunit : ∀ {text unit : String}, Unbroken isBreak text.toList →
      unit.toList.all staysInLine = true → Unbroken isBreak (text ++ unit).toList := by
    intro text unit htext hall
    rw [String.toList_append]
    exact unbroken_append_iff.mpr ⟨htext, h.unbroken hall⟩
  rw [Number.durationText]
  split_ifs
  · exact hunit (unbroken_inUnit h _ _) (by decide)
  · exact hunit (unbroken_inUnit h _ _) (by decide)
  · exact hunit (unbroken_inUnit h _ _) (by decide)
  · exact hunit (unbroken_repr h _) (by decide)

/-- A reason is worded on one line if its texts are on one. -/
theorem Error.unbroken_message (h : LineBreak isBreak) (e : Error)
    (htexts : ∀ t ∈ e.texts, Unbroken isBreak t.toList) : Unbroken isBreak e.message.toList := by
  cases e with
  | transport message =>
    unfold Error.message
    rw [String.toList_append]
    exact unbroken_append_iff.mpr ⟨h.unbroken (by decide), htexts message List.mem_cons_self⟩
  | status code =>
    unfold Error.message
    rw [String.toList_append]
    exact unbroken_append_iff.mpr ⟨h.unbroken (by decide), unbroken_repr h code⟩
  | timeout ns =>
    unfold Error.message
    rw [String.toList_append]
    exact unbroken_append_iff.mpr ⟨h.unbroken (by decide), unbroken_durationText h ns⟩
  | empty => exact h.unbroken (by decide)
  | tooShort length least =>
    unfold Error.message
    simp only [String.toList_append, unbroken_append_iff]
    exact ⟨⟨⟨⟨h.unbroken (by decide), unbroken_repr h length⟩, h.unbroken (by decide)⟩,
      unbroken_repr h least⟩, h.unbroken (by decide)⟩
  | invalidJson message =>
    unfold Error.message
    rw [String.toList_append]
    exact unbroken_append_iff.mpr ⟨h.unbroken (by decide), htexts message List.mem_cons_self⟩
  | missingContents => exact h.unbroken (by decide)
  | offline => exact h.unbroken (by decide)

theorem Attempt.unbroken_text (h : LineBreak isBreak) (a : Attempt)
    (htexts : ∀ t ∈ a.route :: a.error.texts, Unbroken isBreak t.toList) :
    Unbroken isBreak a.text.toList := by
  obtain ⟨hroute, herror⟩ := List.forall_mem_cons.mp htexts
  rw [Attempt.text, String.toList_append, String.toList_append]
  exact unbroken_append_iff.mpr ⟨unbroken_append_iff.mpr ⟨hroute, h.unbroken (by decide)⟩,
    a.error.unbroken_message h herror⟩

/-- **Texts on one line** keep to the remarks, if the title has no
quote. -/
theorem Failure.keepsToRemarks_of_unbroken (h : LineBreak isBreak)
    (htexts : ∀ t ∈ f.texts settings, Unbroken isBreak t.toList)
    (htitle : ∀ c ∈ settings.shortcutFor f.requestedUrl, '"' ∉ c.title.toList) :
    f.KeepsToRemarks isBreak settings := by
  rw [Failure.texts, List.forall_mem_cons, List.forall_mem_cons, List.forall_mem_append,
    List.forall_mem_flatMap] at htexts
  obtain ⟨hurl, hresolved, hattempts, hshortcut⟩ := htexts
  rw [Failure.KeepsToRemarks]
  cases hfor : settings.shortcutFor f.requestedUrl with
  | some c =>
    rw [hfor, Option.toList_some, List.flatMap_singleton, List.forall_mem_cons] at hshortcut
    obtain ⟨hline, hothers⟩ := hshortcut
    refine ⟨List.forall_mem_cons.mpr ⟨furtherRemarks_of_unbroken hurl, ?_⟩, hline, htitle c hfor⟩
    exact fun t ht => furtherRemarks_of_unbroken (hothers t ht)
  | none =>
    refine ⟨?_, List.forall_mem_cons.mpr ⟨furtherRemarks_of_unbroken hresolved, ?_⟩⟩
    · rw [String.toList_append]
      exact furtherRemarks_of_unbroken (unbroken_append_iff.mpr ⟨hurl, h.unbroken (by decide)⟩)
    · rw [List.forall_mem_map]
      exact fun a ha => furtherRemarks_of_unbroken (a.unbroken_text h (hattempts a ha))

/-! ## Inert placeholders -/

/-- **A placeholder keeps everything in remarks**, but for one line at its
end that writes a text, exactly if what it takes over does not break out of
its line or its quotes. So it does if these texts are on one line and a
title has no quote. -/
theorem inert_placeholder (h : LineBreak isBreak) (f : Failure) (settings : Settings) :
    (Inert isBreak (f.placeholder settings).toList ↔ f.KeepsToRemarks isBreak settings) ∧
      ((∀ t ∈ f.texts settings, Unbroken isBreak t.toList) →
        (∀ c ∈ settings.shortcutFor f.requestedUrl, '"' ∉ c.title.toList) →
          Inert isBreak (f.placeholder settings).toList) := by
  refine ⟨inert_placeholder_iff h, fun htexts htitle => ?_⟩
  exact (inert_placeholder_iff h).mpr (Failure.keepsToRemarks_of_unbroken h htexts htitle)

/-- A line feed breaks a line, and nothing else. -/
theorem lineBreak_feed : LineBreak (· == '\n') where
  feed := rfl
  space := rfl
  blank := by
    intro c hc
    rw [beq_iff_eq.mp hc]
    rfl

/-- A failure of two ways, for a URL without a shortcut. -/
def refusedAttempt : Failure where
  requestedUrl := "https://example.com/setup.sh"
  resolvedUrl := "https://example.com/setup.sh"
  attempts := [⟨"direct", .transport "connection refused"⟩, ⟨"corsproxy", .timeout 15000000000⟩]

/-- Its placeholder is inert. -/
theorem inert_placeholder_sample :
    LineBreak (· == '\n') ∧ Inert (· == '\n') (refusedAttempt.placeholder .default).toList := by
  have htexts : ∀ t ∈ refusedAttempt.texts .default, Unbroken (· == '\n') t.toList := by
    decide
  have htitle : ∀ c ∈ Settings.default.shortcutFor refusedAttempt.requestedUrl,
      '"' ∉ c.title.toList := by
    decide
  exact ⟨lineBreak_feed, (inert_placeholder lineBreak_feed refusedAttempt .default).2 htexts htitle⟩

/-- A shortcut whose title has quotes and whose note has three lines, -/
def quickShortcut : Shortcut where
  marker := "example.com/setup"
  finalUrl := "https://example.com/setup.ps1"
  title := "The \"quick\" setup"
  notes := ["Installs:\n- a compiler\n- an editor"]

/-- settings with it, -/
def quickSetup : Settings :=
  { Settings.default with shortcuts := [quickShortcut] }

/-- and a failure for it. -/
def setupFailure : Failure :=
  ⟨"https://example.com/setup", "https://example.com/setup", []⟩

/-- The lines of the note are lines of the placeholder, and the title ends
its quotes. -/
theorem placeholder_not_inert :
    "- a compiler".toList ∈ lines (· == '\n') (setupFailure.placeholder quickSetup).toList ∧
      "Write-Host \"The \"quick\" setup - Content not available for preview\"".toList ∈
        lines (· == '\n') (setupFailure.placeholder quickSetup).toList ∧
      ¬Inert (· == '\n') (setupFailure.placeholder quickSetup).toList := by
  have hfor : quickSetup.shortcutFor setupFailure.requestedUrl = some quickShortcut := by
    decide
  have hlines : lines (· == '\n') (setupFailure.placeholder quickSetup).toList =
      (shortcutLines setupFailure quickShortcut).flatMap fun t => lines (· == '\n') t.toList := by
    rw [Failure.placeholder, hfor]
    exact lines_script lineBreak_feed (List.cons_ne_nil _ _)
  refine ⟨?_, ?_, ?_⟩
  · rw [hlines]
    exact List.mem_flatMap.mpr ⟨"# - Installs:\n- a compiler\n- an editor", by decide,
      by decide⟩
  · rw [hlines]
    exact List.mem_flatMap.mpr
      ⟨"Write-Host \"The \"quick\" setup - Content not available for preview\"",
        by decide, by decide⟩
  · rw [inert_placeholder_iff lineBreak_feed, Failure.KeepsToRemarks, hfor]
    rintro ⟨-, -, hquote⟩
    exact hquote (by decide)

end ShellPreview.Fetch
