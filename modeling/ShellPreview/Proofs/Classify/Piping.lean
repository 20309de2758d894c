import ShellPreview.Proofs.Classify.Options
import ShellPreview.Proofs.Command.Pipe
import ShellPreview.Proofs.Link.Segments
/-!
# Classifying — blanks around a pipe

A link in a command ends at a blank. So with a blank in front of it a pipe
stands behind the link, and without one it is a part of the link, with
what follows it up to the next blank. Else the blanks around a pipe change
nothing but whether a family takes it for one that runs the download
(`blanks_around_pipe`).
-/

namespace ShellPreview.Family

open Command (Piped shells evaluators)

/-- What a pipe must lead to for the family to warn of it. -/
def runners : Family → List (List Char)
  | powerShell => evaluators
  | _ => shells

/-- The caution for such a pipe. -/
def pipeCaution : Family → Caution
  | powerShell => .evaluatesDownloadedCode
  | curl => .runsDownloadedCode
  | _ => .runsDownloadedFile

/-- Whether the family finds such a pipe in a command. -/
def findsPipe (command : String) : Family → Bool
  | powerShell => Text.holds command "| iex" || Text.holds command "| Invoke-Expression"
  | _ => Command.pipesToShell command

/-- A text makes a command that begins with it one of the family, which is
one of the three that download. -/
def Leads : Family → List Char → Prop
  | powerShell, head => ∃ word ∈ webRequestWords, word.toList <:+: head
  | curl, head => "curl".toList <+: head
  | wget, head => "wget".toList <+: head
  | _, _ => False

/-- Two analyses of commands of a family are the same, up to its caution
for a pipe if it finds one in one of them only. If nothing could be
downloaded, PowerShell's family shows each command itself. -/
structure SameButPipe (family : Family) (c d : String) (a b : Analysis) : Prop where
  kind : a.kind = b.kind
  description : a.description = b.description
  warnings : a.warnings.filter (· ≠ family.pipeCaution.text) =
    b.warnings.filter (· ≠ family.pipeCaution.text)
  pipes : family.findsPipe c = family.findsPipe d → a.warnings = b.warnings
  language : a.language = b.language
  links : a.links = b.links
  parameters : a.parameters = b.parameters
  package : a.package = b.package
  payload : a.payload = b.payload
  code : a.code = b.code ∨ family = powerShell ∧
    Caution.notDownloaded.text ∈ a.warnings ∧ a.code = some c ∧ b.code = some d

/-! ## What is read of two commands -/

/-- The same is read of two commands, but for pipes, and they have a
link. -/
structure ReadAlike (c d : String) : Prop where
  link : ∃ url, Link.ofCommand c = some url ∧ Link.ofCommand d = some url
  ofCurl : curlBase c = curlBase d
  ofWget : wgetBase c = wgetBase d
  expansion : Text.holds c "select -ExpandProperty Content" =
    Text.holds d "select -ExpandProperty Content"

section Same

variable {registry : Registry} {fetcher : Fetch.Fetcher} {family : Family} {c d : String}
variable {a b : Analysis} {x y : Fetch.Traced Analysis}

theorem findsPipe_iff : family.findsPipe c = true ↔ Piped family.runners c.toList := by
  cases family with
  | powerShell => exact Command.piped_evaluators_iff
  | _ => exact Command.pipesToShell_iff

/-- What PowerShell's family says of the rest of a command, but for
pipes. -/
def withExpansion (command : String) (a : Analysis) : Analysis :=
  if Text.holds command "select -ExpandProperty Content" then
    a.setParameter "expansion" "extracts only text content"
  else a

theorem withEvaluation_eq (command : String) (a : Analysis) : withEvaluation command a =
    (withExpansion command a).warn
      (cautionIf (powerShell.findsPipe command) powerShell.pipeCaution) := by
  rw [withEvaluation, withExpansion]
  split <;> rfl

theorem SameButPipe.refl (family : Family) (c d : String) (a : Analysis) :
    SameButPipe family c d a a :=
  ⟨rfl, rfl, rfl, fun _ => rfl, rfl, rfl, rfl, rfl, rfl, .inl rfl⟩

/-- The caution for a pipe at the end of the warnings does not count. -/
theorem SameButPipe.of_warn (hbase : SameButPipe family c d a b) :
    SameButPipe family c d (a.warn (cautionIf (family.findsPipe c) family.pipeCaution))
      (b.warn (cautionIf (family.findsPipe d) family.pipeCaution)) where
  kind := hbase.kind
  description := hbase.description
  warnings := by
    have hnone : ∀ p, ((cautionIf p family.pipeCaution).map Caution.text).filter
        (· ≠ family.pipeCaution.text) = [] := by
      intro p
      cases p <;> simp [cautionIf]
    simp only [Analysis.warn, List.filter_append, hnone, List.append_nil]
    exact hbase.warnings
  pipes := fun heq => by rw [Analysis.warn, Analysis.warn, hbase.pipes heq, heq]
  language := hbase.language
  links := hbase.links
  parameters := hbase.parameters
  package := hbase.package
  payload := hbase.payload
  code := by
    refine hbase.code.imp_right ?_
    rintro ⟨hfamily, hwarned, hc, hd⟩
    exact ⟨hfamily, List.mem_append_left _ hwarned, hc, hd⟩

theorem ReadAlike.withExpansion_eq (h : ReadAlike c d) : withExpansion c = withExpansion d := by
  funext a
  rw [withExpansion, withExpansion, h.expansion]

/-- With a document the same is shown. -/
theorem ReadAlike.shown (hd : family.downloads = true) (h : ReadAlike c d)
    (doc : Fetch.Document) :
    SameButPipe family c d (family.shown c doc) (family.shown d doc) := by
  cases family with
  | powerShell =>
    rw [Family.shown, Family.shown, withEvaluation_eq, withEvaluation_eq, h.withExpansion_eq]
    exact (SameButPipe.refl powerShell c d _).of_warn
  | curl =>
    rw [Family.shown, Family.shown, h.ofCurl]
    exact (SameButPipe.refl curl c d _).of_warn
  | wget =>
    rw [Family.shown, Family.shown, h.ofWget]
    exact (SameButPipe.refl wget c d _).of_warn
  | _ => cases hd

/-- And so it is with the reason why there is none. -/
theorem ReadAlike.refused (hd : family.downloads = true) (h : ReadAlike c d)
    (f : Fetch.Failure) :
    SameButPipe family c d (family.refused c f) (family.refused d f) := by
  cases family with
  | powerShell =>
    rw [Family.refused, Family.refused, withEvaluation_eq, withEvaluation_eq, h.withExpansion_eq]
    refine SameButPipe.of_warn ?_
    have hmem : ∀ a : Analysis, Caution.notDownloaded.text ∈
        (a.warn [.notDownloaded, .runsRemoteCode]).warnings := fun a =>
      List.mem_append_right _ List.mem_cons_self
    rw [withExpansion, withExpansion]
    split
    · exact ⟨rfl, rfl, rfl, fun _ => rfl, rfl, rfl, rfl, rfl, rfl, .inr ⟨rfl, hmem _, rfl, rfl⟩⟩
    · exact ⟨rfl, rfl, rfl, fun _ => rfl, rfl, rfl, rfl, rfl, rfl, .inr ⟨rfl, hmem _, rfl, rfl⟩⟩
  | curl =>
    rw [Family.refused, Family.refused, h.ofCurl]
    exact SameButPipe.refl curl c d _
  | wget =>
    rw [Family.refused, Family.refused, h.ofWget]
    exact SameButPipe.refl wget c d _
  | _ => cases hd

/-- **Of commands of which the same is read the same is said**, and the
same is asked. -/
theorem ReadAlike.tells (h : ReadAlike c d) (hd : family.downloads = true)
    (hx : Tells registry fetcher c family x) (hy : Tells registry fetcher d family y) :
    x.calls = y.calls ∧ SameButPipe family c d x.value y.value := by
  obtain ⟨url, hlc, hld⟩ := h.link
  refine (hx.ofFetch hd).relate (hy.ofFetch hd) (hld.trans hlc.symm) (fun hnone => ?_)
    (h.shown hd) (h.refused hd)
  rw [hlc] at hnone
  cases hnone

end Same

/-! ## A head, a link and a pipe -/

/-- A command is a head, a link, and what counts for nothing but pipes:
nothing, or something that begins with a blank and has no word that begins
with a hyphen. -/
structure Parts (head link behind : List Char) : Prop where
  blank : Text.EndsAtStop Text.isBlank head
  opens : Link.Opens link
  noStop : ∀ c ∈ link, Link.isCommandStop c = false
  stop : Text.AtStop Text.isBlank behind
  words : ∀ w ∈ Text.words behind, w.head? ≠ some '-'
  noHyphen : ¬[' ', '-'] <:+: behind

namespace Parts

variable {head link behind link' behind' : List Char}

theorem head?_ne_hyphen (h : Parts head link behind) :
    ∀ w ∈ link :: Text.words behind, w.head? ≠ some '-' :=
  List.forall_mem_cons.mpr ⟨Link.head?_ne_hyphen_of_opens h.opens, h.words⟩

theorem words_eq (h : Parts head link behind) : Text.words (head ++ (link ++ behind)) =
    Text.words head ++ link :: Text.words behind := by
  rw [Text.words_between h.blank h.stop, (Link.isWord_of_opens h.opens h.noStop).words_eq,
    List.singleton_append]

/-- The options are those of the head, -/
theorem hasFlag_eq (h : Parts head link behind) : ∀ o ∈ curlOptions,
    Command.hasFlag (String.ofList (head ++ (link ++ behind))) o.1 o.2 =
      Command.hasFlag (String.ofList head) o.1 o.2 := by
  intro o ho
  have hnone : ¬Command.Gives o.1 o.2 (link :: Text.words behind) := by
    rintro ⟨w, hw, hgives⟩
    exact h.head?_ne_hyphen w hw (hgives.head?_eq (isLong_of_mem_curlOptions o ho))
  rw [Bool.eq_iff_iff, Command.hasFlag_iff, Command.hasFlag_iff, String.toList_ofList,
    String.toList_ofList, h.words_eq, Command.gives_append_iff]
  exact or_iff_left hnone

theorem writesToStdout_eq (h : Parts head link behind) :
    Command.writesToStdout (String.ofList (head ++ (link ++ behind))) =
      Command.writesToStdout (String.ofList head) := by
  have hfirst : (link :: Text.words behind).head? ≠ some ['-'] := fun heq => by
    refine h.head?_ne_hyphen link List.mem_cons_self ?_
    rw [Option.some.inj heq]
    rfl
  have hnone : ¬Command.SendsToStdout (link :: Text.words behind) := by
    rintro ⟨front, w, rest, heq, houtputs⟩
    refine h.head?_ne_hyphen w ?_ houtputs.head?_eq
    rw [heq]
    exact List.mem_append_right _ List.mem_cons_self
  rw [Bool.eq_iff_iff, Command.writesToStdout_iff, Command.writesToStdout_iff,
    String.toList_ofList, String.toList_ofList, h.words_eq, Command.sendsToStdout_append_iff hfirst]
  exact or_iff_left hnone

/-- what PowerShell makes of the download is said in the head, -/
theorem expansion_eq (h : Parts head link behind) :
    Text.holds (String.ofList (head ++ (link ++ behind))) "select -ExpandProperty Content" =
      Text.holds (String.ofList head) "select -ExpandProperty Content" := by
  obtain ⟨front, b, rfl, hb⟩ := h.blank
  obtain ⟨rest, rfl⟩ := Link.exists_eq_cons_of_opens h.opens
  have hspace : ' ' ∉ 'h' :: rest := fun hmem => by
    have hstop := h.noStop ' ' hmem
    cases hstop
  have hcut : ¬[b, 'h'] <:+: "select -ExpandProperty Content".toList := fun hpart => by
    have hmem : 'h' ∈ "select -ExpandProperty Content".toList := hpart.subset (by simp)
    exact absurd hmem (by decide)
  have hbehind : ¬"select -ExpandProperty Content".toList <:+: 'h' :: rest ++ behind := by
    intro hpart
    have hhyphen : [' ', '-'] <:+: "select -ExpandProperty Content".toList := by decide
    exact h.noHyphen ((Text.infix_append_of_not_mem_iff hspace).mp (hhyphen.trans hpart))
  rw [Bool.eq_iff_iff, Text.holds_iff, Text.holds_iff, String.toList_ofList (l := _ ++ (_ ++ _)),
    String.toList_ofList (l := front ++ [b]), List.cons_append, Text.infix_cut_iff hcut,
    ← List.cons_append]
  exact or_iff_left hbehind

/-- and the link is the first one if there is none in the head. -/
theorem ofCommand_eq (h : Parts head link behind) :
    Link.ofCommand (String.ofList (head ++ (link ++ behind))) =
      some (String.ofList ((Link.first Link.isCommandStop head).getD link)) := by
  have hlink := Link.first_of_opens Link.passesSchemes_isCommandStop h.opens h.noStop
    (Text.atStop_nil Link.isCommandStop)
  rw [List.append_nil] at hlink
  rw [Link.ofCommand, String.toList_ofList, Link.first_between h.blank h.stop, hlink]
  cases Link.first Link.isCommandStop head <;> rfl

/-- **Of two commands with the same head and the same first link the same
is read.** -/
theorem readAlike (h : Parts head link behind) (h' : Parts head link' behind')
    (hlink : (Link.first Link.isCommandStop head).getD link =
      (Link.first Link.isCommandStop head).getD link') :
    ReadAlike (String.ofList (head ++ (link ++ behind)))
      (String.ofList (head ++ (link' ++ behind'))) where
  link := ⟨_, h.ofCommand_eq, hlink ▸ h'.ofCommand_eq⟩
  ofCurl := curlBase_congr fun o ho => (h.hasFlag_eq o ho).trans (h'.hasFlag_eq o ho).symm
  ofWget := wgetBase_congr (h.writesToStdout_eq.trans h'.writesToStdout_eq.symm)
  expansion := h.expansion_eq.trans h'.expansion_eq.symm

end Parts

/-! ## Blanks around the pipe -/

/-- A blank that may be left out. -/
def gap (blank : Bool) : List Char :=
  if blank then [' '] else []

/-- A head, a link and a pipe, which may have blanks in front of it and
behind it. -/
def piped (head link runner : List Char) (front behind : Bool) : String :=
  String.ofList (head ++ (link ++ (gap front ++ '|' :: (gap behind ++ runner))))

/-- What of it is the link: all up to the first blank. -/
def linkIn (link runner : List Char) : Bool → Bool → List Char
  | true, _ => link
  | false, true => link ++ ['|']
  | false, false => link ++ '|' :: runner

/-- What is behind the link. -/
def behindLink (runner : List Char) : Bool → Bool → List Char
  | true, behind => ' ' :: '|' :: (gap behind ++ runner)
  | false, true => ' ' :: runner
  | false, false => []

/-- The same comes of two commands of a family: the same is asked, and the
same is said up to the caution for a pipe, or with it. -/
def ComesToSame (registry : Registry) (fetcher : Fetch.Fetcher) (family : Family)
    (c d : String) (exactly : Bool) : Prop :=
  ∃ a b, (family.recognize registry fetcher c).value = some a ∧
    (family.recognize registry fetcher d).value = some b ∧
    (family.recognize registry fetcher c).calls = (family.recognize registry fetcher d).calls ∧
    SameButPipe family c d a b ∧ (exactly = true → a.warnings = b.warnings)

section Piped

variable {registry : Registry} {fetcher : Fetch.Fetcher} {family : Family}
variable {head link runner : List Char} {front behind : Bool}

theorem piped_eq (head link runner : List Char) (front behind : Bool) :
    piped head link runner front behind =
      String.ofList
        (head ++ (linkIn link runner front behind ++ behindLink runner front behind)) := by
  rw [piped]
  cases front <;> cases behind <;> simp [gap, linkIn, behindLink]

theorem runners_subset (family : Family) : family.runners ⊆ shells ++ evaluators := by
  cases family <;> simp [runners]

/-- **A pipe behind a link leaves the parts of a command**, and without a
blank in front of it the pipe is a part of the link. -/
theorem parts_piped (hblank : Text.EndsAtStop Text.isBlank head) (hopens : Link.Opens link)
    (hlink : ∀ c ∈ link, Link.isCommandStop c = false) (hrunner : runner ∈ shells ++ evaluators)
    (front behind : Bool) :
    Parts head (linkIn link runner front behind) (behindLink runner front behind) := by
  have hrunners : ∀ runner ∈ shells ++ evaluators,
      (runner.all fun c => !Link.isCommandStop c) = true := by
    decide
  have hwords : ∀ runner ∈ shells ++ evaluators, ∀ front behind,
      ∀ w ∈ Text.words (behindLink runner front behind), w.head? ≠ some '-' := by
    decide
  have hhyphens : ∀ runner ∈ shells ++ evaluators, ∀ front behind,
      ¬[' ', '-'] <:+: behindLink runner front behind := by
    decide
  refine ⟨hblank, ?_, ?_, ?_, hwords runner hrunner front behind,
    hhyphens runner hrunner front behind⟩
  · cases front with
    | true => exact hopens
    | false => cases behind <;> exact hopens.append _
  · have hpipe : Link.isCommandStop '|' = false := rfl
    cases front with
    | true => exact hlink
    | false =>
      cases behind with
      | true =>
        exact List.forall_mem_append.mpr ⟨hlink, List.forall_mem_singleton.mpr hpipe⟩
      | false =>
        exact List.forall_mem_append.mpr ⟨hlink, List.forall_mem_cons.mpr
          ⟨hpipe, Text.forall_of_all_not (hrunners runner hrunner)⟩⟩
  · cases front with
    | true => exact Text.atStop_cons rfl _
    | false =>
      cases behind with
      | true => exact Text.atStop_cons rfl _
      | false => exact Text.atStop_nil _

/-- With a blank behind the pipe the family finds it. -/
theorem findsPipe_piped (hrunner : runner ∈ family.runners) (head link : List Char)
    (front : Bool) : family.findsPipe (piped head link runner front true) = true := by
  rw [findsPipe_iff, piped, String.toList_ofList]
  refine ⟨runner, hrunner, head ++ (link ++ gap front), [], ?_⟩
  simp [gap]

theorem Leads.tells (h : family.Leads head) (registry : Registry) (fetcher : Fetch.Fetcher)
    (rest : List Char) : family.downloads = true ∧
      ∃ x, Tells registry fetcher (String.ofList (head ++ rest)) family x := by
  have htext := String.toList_ofList (l := head ++ rest)
  cases family with
  | powerShell =>
    obtain ⟨word, hword, hpart⟩ := h
    have hholds : Text.holds (String.ofList (head ++ rest)) word = true := by
      rw [Text.holds_iff, htext]
      exact hpart.trans (List.prefix_append head rest).isInfix
    exact ⟨rfl, _, .powerShell (List.any_eq_true.mpr ⟨word, hword, hholds⟩)⟩
  | curl =>
    refine ⟨rfl, _, .curl ?_⟩
    rw [Text.begins_iff, htext]
    exact h.trans (List.prefix_append head rest)
  | wget =>
    refine ⟨rfl, _, .wget ?_⟩
    rw [Text.begins_iff, htext]
    exact h.trans (List.prefix_append head rest)
  | _ => cases h

/-- Two commands with the same head and the same first link come to the
same. -/
theorem comesToSame_of_parts {link' behind₁ behind₂ : List Char} {exactly : Bool}
    (hhead : family.Leads head) (h : Parts head link behind₁) (h' : Parts head link' behind₂)
    (hlink : (Link.first Link.isCommandStop head).getD link =
      (Link.first Link.isCommandStop head).getD link')
    (hpipes : exactly = true →
      family.findsPipe (String.ofList (head ++ (link ++ behind₁))) = true ∧
        family.findsPipe (String.ofList (head ++ (link' ++ behind₂))) = true) :
    ComesToSame registry fetcher family (String.ofList (head ++ (link ++ behind₁)))
      (String.ofList (head ++ (link' ++ behind₂))) exactly := by
  obtain ⟨hd, x, hx⟩ := hhead.tells registry fetcher (link ++ behind₁)
  obtain ⟨-, y, hy⟩ := hhead.tells registry fetcher (link' ++ behind₂)
  obtain ⟨hcalls, hsame⟩ := (h.readAlike h' hlink).tells hd hx hy
  refine ⟨_, _, hx.recognize_eq.1, hy.recognize_eq.1, ?_, hsame, fun hexactly => ?_⟩
  · rw [hx.recognize_eq.2, hy.recognize_eq.2, hcalls]
  · obtain ⟨hc, hd⟩ := hpipes hexactly
    exact hsame.pipes (hc.trans hd.symm)

end Piped

/-- **A blank in front of a pipe ends the link, and other blanks around the
pipe change no more than the caution for it.** Each spelling comes to the
same as the one with both blanks does with the link of the spelling, which
has the pipe in it if there is no blank in front. If the head has a link of
its own, all spellings come to the same. With a blank behind the pipe the
caution is the same too. -/
theorem blanks_around_pipe (registry : Registry) (fetcher : Fetch.Fetcher) {family : Family}
    {head link runner : List Char} (hhead : family.Leads head)
    (hblank : Text.EndsAtStop Text.isBlank head) (hopens : Link.Opens link)
    (hlink : ∀ c ∈ link, Link.isCommandStop c = false) (hrunner : runner ∈ family.runners)
    (front behind : Bool) :
    ComesToSame registry fetcher family (piped head link runner front behind)
        (piped head (linkIn link runner front behind) runner true true) behind ∧
      ((Link.first Link.isCommandStop head).isSome = true →
        ComesToSame registry fetcher family (piped head link runner front behind)
          (piped head link runner true true) behind) := by
  have hall := runners_subset family hrunner
  have hparts := parts_piped hblank hopens hlink hall front behind
  have hplain := parts_piped hblank hopens hlink hall true true
  have hwhole := parts_piped hblank hparts.opens hparts.noStop hall true true
  have hfinds : behind = true → family.findsPipe (piped head link runner front behind) = true := by
    rintro rfl
    exact findsPipe_piped hrunner head link front
  rw [piped_eq head link runner front behind] at hfinds ⊢
  refine ⟨?_, fun hsome => ?_⟩
  · have hfinds' := findsPipe_piped hrunner head (linkIn link runner front behind) true
    rw [piped_eq] at hfinds' ⊢
    exact comesToSame_of_parts hhead hparts hwhole rfl fun hbehind => ⟨hfinds hbehind, hfinds'⟩
  · have hfinds' := findsPipe_piped hrunner head link true
    rw [piped_eq] at hfinds' ⊢
    obtain ⟨first, hfirst⟩ := Option.isSome_iff_exists.mp hsome
    refine comesToSame_of_parts hhead hparts hplain ?_ fun hbehind => ⟨hfinds hbehind, hfinds'⟩
    rw [hfirst, Option.getD_some, Option.getD_some]

/-- A pipe without a blank in front of it, for curl and for PowerShell. -/
theorem blanks_around_pipe_samples :
    ComesToSame ⟨[], []⟩ ⟨.offline, .default, 0⟩ curl
        (piped "curl -s ".toList "https://a/b.sh".toList "sh".toList false true)
        (piped "curl -s ".toList "https://a/b.sh|".toList "sh".toList true true) true ∧
      ComesToSame ⟨[], []⟩ ⟨.offline, .default, 0⟩ powerShell
        (piped "iwr ".toList "https://a/b.ps1".toList "iex".toList false false)
        (piped "iwr ".toList "https://a/b.ps1|iex".toList "iex".toList true true) false := by
  have hcurl : curl.Leads "curl -s ".toList := show "curl".toList <+: "curl -s ".toList by decide
  have hpowerShell : powerShell.Leads "iwr ".toList :=
    show ∃ word ∈ webRequestWords, word.toList <:+: "iwr ".toList by decide
  exact ⟨(blanks_around_pipe ⟨[], []⟩ ⟨.offline, .default, 0⟩ hcurl
      ⟨"curl -s".toList, ' ', rfl, rfl⟩ (by decide) (Text.forall_of_all_not (by decide)) (by decide)
      false true).1,
    (blanks_around_pipe ⟨[], []⟩ ⟨.offline, .default, 0⟩ hpowerShell
      ⟨"iwr".toList, ' ', rfl, rfl⟩ (by decide) (Text.forall_of_all_not (by decide)) (by decide)
      false false).1⟩

/-- So a blank in front of a pipe decides what is asked for. -/
theorem pipe_in_link :
    (curl.recognize ⟨[], []⟩ ⟨.offline, .default, 0⟩ "curl https://example.com/x.sh| sh").calls ≠
      (curl.recognize ⟨[], []⟩ ⟨.offline, .default, 0⟩
        "curl https://example.com/x.sh | sh").calls := by
  decide

end ShellPreview.Family
