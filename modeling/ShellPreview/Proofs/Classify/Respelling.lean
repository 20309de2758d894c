import ShellPreview.Proofs.Classify.Options
import ShellPreview.Proofs.Command.Pipe
import ShellPreview.Proofs.Link.Segments
/-!
# Classifying — spellings of a command of curl

A piece of a command between blanks can be put in the place of another one
if both give the same options and have the same first link, and neither has
a pipe (`Alike.interchangeable`). So it does not matter whether short
options stand together, whether an option has its long name, and whether a
link is quoted (`curl_respellings`).
-/

namespace ShellPreview.Family

open Command (Gives GivesOption Clear shells)

/-- Two pieces give the same options and have the same first link, and they
are clear of pipes to a shell. -/
structure Alike (piece piece' : List Char) : Prop where
  options : ∀ o ∈ curlOptions,
    Gives o.1 o.2 (Text.words piece) ↔ Gives o.1 o.2 (Text.words piece')
  link : Link.first Link.isCommandStop piece = Link.first Link.isCommandStop piece'
  clear : Clear shells piece
  clear' : Clear shells piece'

/-- The same is said of a command of curl with the one piece and with the
other, on any network, and the same is asked. There are blanks around the
piece, or nothing is behind it. -/
def Interchangeable (piece piece' : List Char) : Prop :=
  ∀ (registry : Registry) (fetcher : Fetch.Fetcher) (before behind : List Char),
    "curl".toList <+: before → Text.EndsAtStop Text.isBlank before →
    Text.AtStop Text.isBlank behind →
    (∃ a, (curl.recognize registry fetcher (String.ofList (before ++ (piece ++ behind)))).value =
      some a) ∧
    curl.recognize registry fetcher (String.ofList (before ++ (piece ++ behind))) =
      curl.recognize registry fetcher (String.ofList (before ++ (piece' ++ behind)))

/-- Short options that stand together. -/
def together (letters : List Char) : List Char :=
  '-' :: letters

/-- Short options that stand apart. -/
def apart (letters : List Char) : List Char :=
  [' '].intercalate (letters.map fun l => ['-', l])

/-- A link in quotes. -/
def quoted (quote : Char) (link : List Char) : List Char :=
  quote :: (link ++ [quote])

section Pieces

variable {before piece piece' behind letters link : List Char} {quote : Char}

/-! ## Pieces in a command -/

/-- **Pieces that are alike can stand for each other.** -/
theorem Alike.interchangeable (h : Alike piece piece') : Interchangeable piece piece' := by
  intro registry fetcher before behind hcurl hbefore hbehind
  have hbegins : ∀ piece : List Char,
      Text.begins (String.ofList (before ++ (piece ++ behind))) "curl" = true := by
    intro piece
    rw [Text.begins_iff, String.toList_ofList (l := before ++ (piece ++ behind))]
    exact hcurl.trans (List.prefix_append _ _)
  have hbase : curlBase (String.ofList (before ++ (piece ++ behind))) =
      curlBase (String.ofList (before ++ (piece' ++ behind))) := by
    refine curlBase_congr fun o ho => Bool.eq_iff_iff.mpr ?_
    simp only [Command.hasFlag_iff, String.toList_ofList, Text.words_between hbefore hbehind,
      Command.gives_append_iff, h.options o ho]
  have hlink : Link.ofCommand (String.ofList (before ++ (piece ++ behind))) =
      Link.ofCommand (String.ofList (before ++ (piece' ++ behind))) := by
    simp only [Link.ofCommand, String.toList_ofList, Link.first_between hbefore hbehind, h.link]
  have hpipes : Command.pipesToShell (String.ofList (before ++ (piece ++ behind))) =
      Command.pipesToShell (String.ofList (before ++ (piece' ++ behind))) := by
    have hshells := Command.isWord_of_mem_shells
    refine Bool.eq_iff_iff.mpr ?_
    simp only [Command.pipesToShell_iff, String.toList_ofList,
      Command.piped_around_iff hshells hbefore h.clear,
      Command.piped_around_iff hshells hbefore h.clear']
  simp only [recognize, hbegins, if_true, download, hbase, hlink, hpipes, and_true]
  exact ⟨_, rfl⟩

/-! ## Short options -/

theorem ne_of_isAlpha {x y : Char} (hx : x.isAlpha = true) (hy : y.isAlpha = false) : x ≠ y := by
  rintro rfl
  rw [hx] at hy
  cases hy

/-- A letter and what comes behind its option. -/
theorem apart_cons (l : Char) (letters : List Char) :
    ∃ cs, apart (l :: letters) = '-' :: l :: cs ∧ ∀ x ∈ cs, x = ' ' ∨ x ∈ apart letters := by
  cases letters with
  | nil => exact ⟨[], rfl, nofun⟩
  | cons l' letters =>
    refine ⟨' ' :: apart (l' :: letters), List.intercalate_cons_cons, ?_⟩
    exact fun x hx => List.mem_cons.mp hx

theorem mem_apart {x : Char} (hx : x ∈ apart letters) : x = ' ' ∨ x = '-' ∨ x ∈ letters := by
  induction letters with
  | nil => cases hx
  | cons l letters ih =>
    obtain ⟨cs, hapart, hcs⟩ := apart_cons l letters
    rw [hapart] at hx
    rcases List.mem_cons.mp hx with rfl | hx
    · exact .inr (.inl rfl)
    rcases List.mem_cons.mp hx with rfl | hx
    · exact .inr (.inr List.mem_cons_self)
    rcases hcs x hx with rfl | hx
    · exact .inl rfl
    · exact (ih hx).imp_right (Or.imp_right (List.mem_cons_of_mem l))

theorem words_together (hletters : ∀ l ∈ letters, l.isAlpha = true) :
    Text.words (together letters) = [together letters] := by
  have hword : Text.IsWord (together letters) :=
    ⟨List.cons_ne_nil _ _, List.forall_mem_cons.mpr
      ⟨rfl, fun l hl => Text.isBlank_of_isAlpha (hletters l hl)⟩⟩
  exact hword.words_eq

theorem words_apart (hletters : ∀ l ∈ letters, l.isAlpha = true) :
    Text.words (apart letters) = letters.map fun l => ['-', l] := by
  have hwords : ∀ word ∈ letters.map fun l => ['-', l], Text.IsWord word := by
    intro word hword
    obtain ⟨l, hl, rfl⟩ := List.mem_map.mp hword
    exact ⟨List.cons_ne_nil _ _, List.forall_mem_cons.mpr
      ⟨rfl, List.forall_mem_singleton.mpr (Text.isBlank_of_isAlpha (hletters l hl))⟩⟩
  have hspaced := Text.words_spaced hwords (Text.atStop_nil Text.isBlank)
  rw [List.append_nil] at hspaced
  rw [apart, hspaced]
  exact List.append_nil _

/-- **Letters that stand together or apart give the same options.** -/
theorem alike_apart (hne : letters ≠ []) (hletters : ∀ l ∈ letters, l.isAlpha = true) :
    Alike (together letters) (apart letters) := by
  have hnot : ∀ {y : Char}, y.isAlpha = false → y ∉ letters := fun hy hmem =>
    ne_of_isAlpha (hletters _ hmem) hy rfl
  -- a character that is no letter, no space and no hyphen stands in neither
  have htogether : ∀ {y : Char}, y.isAlpha = false → y ≠ '-' → y ∉ together letters :=
    fun hy hhyphen => List.not_mem_cons_of_ne_of_not_mem hhyphen (hnot hy)
  have hapart : ∀ {y : Char}, y.isAlpha = false → y ≠ '-' → y ≠ ' ' → y ∉ apart letters := by
    intro y hy hhyphen hspace hmem
    rcases mem_apart hmem with rfl | rfl | hmem
    · exact hspace rfl
    · exact hhyphen rfl
    · exact hnot hy hmem
  refine ⟨fun o ho => ?_, ?_, ?_, ?_⟩
  · have hlong := isLong_of_mem_curlOptions o ho
    have hhead : letters.head? ≠ some '-' := fun hhead =>
      hnot (y := '-') rfl (List.mem_of_head? hhead)
    have hsingle : ∀ l ∈ letters, (GivesOption o.1 o.2 ['-', l] ↔ o.1 = l) := by
      intro l hl
      have hl' : [l].head? ≠ some '-' := fun heq =>
        ne_of_isAlpha (hletters l hl) rfl (Option.some.inj heq)
      rw [Command.givesOption_cluster_iff hlong hl', List.mem_singleton]
    rw [words_together hletters, words_apart hletters, Command.gives_singleton_iff, together,
      Command.givesOption_cluster_iff hlong hhead]
    constructor
    · exact fun hmem => ⟨['-', o.1], List.mem_map_of_mem hmem, (hsingle _ hmem).mpr rfl⟩
    · rintro ⟨word, hword, hgives⟩
      obtain ⟨l, hl, rfl⟩ := List.mem_map.mp hword
      exact (hsingle l hl).mp hgives ▸ hl
  · rw [Link.first_of_not_mem (htogether rfl (by decide)),
      Link.first_of_not_mem (hapart rfl (by decide) (by decide))]
  · exact ⟨htogether rfl (by decide), '-', letters, rfl, by decide⟩
  · obtain ⟨l, letters, rfl⟩ := List.exists_cons_of_ne_nil hne
    obtain ⟨cs, heq, -⟩ := apart_cons l letters
    exact ⟨hapart rfl (by decide) (by decide), '-', l :: cs, heq, by decide⟩

/-- An option is the same by its letter and by its long name. -/
theorem alike_long : ∀ o ∈ curlOptions, Alike ['-', o.1] o.2.toList := by
  have hoptions : ∀ o ∈ curlOptions, ∀ o' ∈ curlOptions,
      (Gives o'.1 o'.2 (Text.words ['-', o.1]) ↔ Gives o'.1 o'.2 (Text.words o.2.toList)) := by
    decide
  have hlinks : ∀ o ∈ curlOptions, Link.first Link.isCommandStop ['-', o.1] =
      Link.first Link.isCommandStop o.2.toList := by
    decide
  have hclear : ∀ o ∈ curlOptions, Clear shells ['-', o.1] ∧ Clear shells o.2.toList := by
    decide
  intro o ho
  exact ⟨hoptions o ho, hlinks o ho, (hclear o ho).1, (hclear o ho).2⟩

/-! ## Quotes -/

/-- A word that does not begin with a hyphen gives no option. -/
theorem not_gives_of_head (hpiece : Text.IsWord piece) (hhead : piece.head? ≠ some '-') :
    ∀ o ∈ curlOptions, ¬Gives o.1 o.2 (Text.words piece) := by
  intro o ho
  rw [hpiece.words_eq, Command.gives_singleton_iff]
  exact fun hgives => hhead (hgives.head?_eq (isLong_of_mem_curlOptions o ho))

/-- A quote is a stop of links, but no blank; it is no hyphen and no pipe,
and no shell begins with it. -/
theorem quote_spec (hquote : Command.isQuote quote = true) :
    Link.isCommandStop quote = true ∧ Text.isBlank quote = false ∧ quote ≠ '-' ∧ quote ≠ '|' ∧
      ∀ target ∈ shells, target.head? ≠ some quote := by
  have hquotes : quote = '\x27' ∨ quote = '\x22' := by simpa [Command.isQuote] using hquote
  rcases hquotes with rfl | rfl <;> decide

/-- **A link is the same in quotes.** -/
theorem alike_quoted (hopens : Link.Opens link)
    (hlink : ∀ x ∈ link, Link.isCommandStop x = false) (hpipe : '|' ∉ link)
    (hquote : Command.isQuote quote = true) : Alike link (quoted quote link) := by
  obtain ⟨hquotestop, hquoteblank, hhyphen, hquotepipe, hquotehead⟩ := quote_spec hquote
  have hstop := Link.passesSchemes_isCommandStop
  have hword := Link.isWord_of_opens hopens hlink
  refine ⟨fun o ho => ?_, ?_, ?_, ?_⟩
  · have hquoted : Text.IsWord (quoted quote link) :=
      ⟨List.cons_ne_nil _ _, List.forall_mem_cons.mpr ⟨hquoteblank,
        List.forall_mem_append.mpr ⟨hword.2, List.forall_mem_singleton.mpr hquoteblank⟩⟩⟩
    have hhead : (quoted quote link).head? ≠ some '-' := fun heq =>
      hhyphen (Option.some.inj heq)
    exact iff_of_false (not_gives_of_head hword (Link.head?_ne_hyphen_of_opens hopens) o ho)
      (not_gives_of_head hquoted hhead o ho)
  · have hplain := Link.first_of_opens hstop hopens hlink (Text.atStop_nil _)
    have hbetween := Link.first_of_opens hstop hopens hlink (Text.atStop_cons hquotestop [])
    rw [List.append_nil] at hplain
    rw [hplain, quoted, Link.first_cons_of_stop hstop hquotestop, hbetween]
  · obtain ⟨cs, hcons⟩ := Link.exists_eq_cons_of_opens hopens
    exact ⟨hpipe, 'h', cs, hcons, by decide⟩
  · have hquoted : '|' ∉ quoted quote link :=
      List.not_mem_cons_of_ne_of_not_mem hquotepipe.symm fun hmem =>
        (List.mem_append.mp hmem).elim hpipe fun hmem =>
          hquotepipe.symm (List.mem_singleton.mp hmem)
    exact ⟨hquoted, quote, link ++ [quote], rfl, hquotehead⟩

end Pieces

/-- **How options and the link are spelled does not matter to curl's
family**: short options may stand together or apart, each option that
counts may have its long name, and a link without a pipe may be in quotes
of either kind. -/
theorem curl_respellings :
    (∀ letters, letters ≠ [] → (∀ l ∈ letters, l.isAlpha = true) →
      Interchangeable (together letters) (apart letters)) ∧
    (Interchangeable "-s".toList "--silent".toList ∧
      Interchangeable "-L".toList "--location".toList ∧
      Interchangeable "-k".toList "--insecure".toList) ∧
    ∀ link quote, Link.Opens link → (∀ x ∈ link, Link.isCommandStop x = false) → '|' ∉ link →
      Command.isQuote quote = true → Interchangeable link (quoted quote link) := by
  refine ⟨fun letters hne hletters => ?_, ⟨?_, ?_, ?_⟩,
    fun link quote hopens hlink hpipe hquote => ?_⟩
  · exact (alike_apart hne hletters).interchangeable
  · exact (alike_long ('s', "--silent") (by decide)).interchangeable
  · exact (alike_long ('L', "--location") (by decide)).interchangeable
  · exact (alike_long ('k', "--insecure") (by decide)).interchangeable
  · exact (alike_quoted hopens hlink hpipe hquote).interchangeable

/-- A cluster of four letters, and a link in double quotes. -/
theorem curl_respellings_sample :
    curl.recognize ⟨[], []⟩ ⟨.offline, .default, 0⟩ "curl -fsSL http://a | sh" =
      curl.recognize ⟨[], []⟩ ⟨.offline, .default, 0⟩ "curl -f -s -S -L http://a | sh" ∧
    curl.recognize ⟨[], []⟩ ⟨.offline, .default, 0⟩ "curl http://a | sh" =
      curl.recognize ⟨[], []⟩ ⟨.offline, .default, 0⟩ "curl \"http://a\" | sh" := by
  have hbefore : Text.EndsAtStop Text.isBlank "curl ".toList := ⟨"curl".toList, ' ', rfl, rfl⟩
  have hpipe : Text.AtStop Text.isBlank " | sh".toList := Text.atStop_cons (c := ' ') rfl _
  have hlink : Text.AtStop Text.isBlank " http://a | sh".toList := Text.atStop_cons (c := ' ') rfl _
  have hletters : ∀ l ∈ "fsSL".toList, l.isAlpha = true := List.all_eq_true.mp (by decide)
  have hstops : ∀ x ∈ "http://a".toList, Link.isCommandStop x = false :=
    Text.forall_of_all_not (by decide)
  exact ⟨(curl_respellings.1 _ (by decide) hletters ⟨[], []⟩ ⟨.offline, .default, 0⟩ _ _
      (by decide) hbefore hlink).2,
    (curl_respellings.2.2 _ '\x22' (by decide) hstops (by decide) rfl ⟨[], []⟩
      ⟨.offline, .default, 0⟩ _ _ (by decide) hbefore hpipe).2⟩

end ShellPreview.Family
