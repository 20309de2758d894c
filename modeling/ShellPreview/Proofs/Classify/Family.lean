import ShellPreview.Classify
/-!
# Classifying — what a family can say

A family either tells one of the things of `Family.Tells` or declines
without having done anything: `tells_or_declines`. All that is known of a
family's answer is read off the cases of `Tells`, and for the families
that download off `Tells.ofFetch`.
-/

namespace ShellPreview

namespace Family

/-- The families that download what a command would download. -/
def downloads : Family → Bool
  | powerShell => true
  | curl => true
  | wget => true
  | _ => false

/-- What a family tells of a command that belongs to it. -/
inductive Tells (registry : Registry) (fetcher : Fetch.Fetcher) (command : String) :
    Family → Fetch.Traced Analysis → Prop
  | manager {m : Installer} (hm : registry.managerFor command = some m) :
      Tells registry fetcher command .packageManager (pure (ofManager m command))
  | tool {t : Tool} (ht : registry.toolFor command = some t) :
      Tells registry fetcher command .programmingTool (pure (ofTool t command))
  | powerShell (hw : webRequestWords.any (Text.holds command) = true) :
      Tells registry fetcher command .powerShell
        (withEvaluation command <$> powerShellDownload fetcher command)
  | curl (hb : Text.begins command "curl" = true) :
      Tells registry fetcher command .curl
        (download fetcher (curlBase command) .runsDownloadedCode command)
  | wget (hb : Text.begins command "wget" = true) :
      Tells registry fetcher command .wget
        (download fetcher (wgetBase command) .runsDownloadedFile command)
  | inline (hp : Text.holds command "python" = true) (hc : Text.holds command "-c" = true) :
      Tells registry fetcher command .pythonInline (pure (ofInlinePython command))
  | npm (hb : Text.begins command "npm " = true) :
      Tells registry fetcher command .npm (pure (ofNode "npm - Node Package Manager" command))
  | npx (hb : Text.begins command "npx " = true) (hn : Text.begins command "npm " = false) :
      Tells registry fetcher command .npm (pure (ofNode "npx - Node Package Execute" command))

variable {registry : Registry} {fetcher : Fetch.Fetcher} {command : String} {family : Family}
variable {x : Fetch.Traced Analysis}

/-- A family that tells something is tried with this result. -/
theorem Tells.recognize_eq (h : Tells registry fetcher command family x) :
    (family.recognize registry fetcher command).value = some x.value ∧
      (family.recognize registry fetcher command).calls = x.calls := by
  cases h with
  | manager hm => simp [recognize, hm]
  | tool ht => simp [recognize, ht]
  | powerShell hw => simp [recognize, hw]
  | curl hb => simp [recognize, hb]
  | wget hb => simp [recognize, hb]
  | inline hp hc => simp [recognize, hp, hc]
  | npm hb => simp [recognize, hb]
  | npx hb hn => simp [recognize, hb, hn]

/-- **A family tells something or declines**, and if it declines it has
made no request. -/
theorem tells_or_declines (registry : Registry) (fetcher : Fetch.Fetcher) (command : String)
    (family : Family) : (∃ x, Tells registry fetcher command family x) ∨
      family.recognize registry fetcher command = pure none := by
  cases family with
  | packageManager =>
    rcases hm : registry.managerFor command with - | m
    · exact .inr (by simp [recognize, hm])
    · exact .inl ⟨_, .manager hm⟩
  | programmingTool =>
    rcases ht : registry.toolFor command with - | t
    · exact .inr (by simp [recognize, ht])
    · exact .inl ⟨_, .tool ht⟩
  | powerShell =>
    rcases hw : webRequestWords.any (Text.holds command) with - | -
    · exact .inr (by simp [recognize, hw])
    · exact .inl ⟨_, .powerShell hw⟩
  | curl =>
    rcases hb : Text.begins command "curl" with - | -
    · exact .inr (by simp [recognize, hb])
    · exact .inl ⟨_, .curl hb⟩
  | wget =>
    rcases hb : Text.begins command "wget" with - | -
    · exact .inr (by simp [recognize, hb])
    · exact .inl ⟨_, .wget hb⟩
  | pythonInline =>
    rcases hp : Text.holds command "python" with - | -
    · exact .inr (by simp [recognize, hp])
    rcases hc : Text.holds command "-c" with - | -
    · exact .inr (by simp [recognize, hc])
    · exact .inl ⟨_, .inline hp hc⟩
  | npm =>
    rcases hn : Text.begins command "npm " with - | -
    · rcases hx : Text.begins command "npx " with - | -
      · exact .inr (by simp [recognize, hn, hx])
      · exact .inl ⟨_, .npx hx hn⟩
    · exact .inl ⟨_, .npm hn⟩

/-- What a family is tried with is one of the things it tells. -/
theorem tells_of_recognize {a : Analysis}
    (h : (family.recognize registry fetcher command).value = some a) :
    ∃ x, Tells registry fetcher command family x ∧ x.value = a := by
  rcases tells_or_declines registry fetcher command family with ⟨x, hx⟩ | hnone
  · rw [hx.recognize_eq.1] at h
    exact ⟨x, hx, Option.some.inj h⟩
  · rw [hnone] at h
    cases h

/-- A family with nothing to tell makes no request. -/
theorem calls_of_value_eq_none
    (h : (family.recognize registry fetcher command).value = none) :
    (family.recognize registry fetcher command).calls = [] := by
  rcases tells_or_declines registry fetcher command family with ⟨x, hx⟩ | hnone
  · rw [hx.recognize_eq.1] at h
    cases h
  · rw [hnone]
    rfl

/-! ## The families that download -/

/-- What is said of a download of PowerShell before anything is
downloaded. -/
def powerShellBase : Analysis :=
  Analysis.new "PowerShell - Web Request" "PowerShell command to download web content" .powerShell

/-- The cautions for a document of PowerShell: none if it is taken for a
binary file. -/
def scriptCautions (body : String) : List Caution :=
  match Payload.cautionOf body with
  | some _ => []
  | none => (Caution.ofScript body).toList

/-- What a family that downloads tells of a command without a link. -/
def idle (command : String) : Family → Analysis
  | powerShell => withEvaluation command { powerShellBase with code := some command }
  | curl => curlBase command
  | wget => wgetBase command
  | _ => .unknown

/-- What it tells when there is a document. -/
def shown (command : String) (d : Fetch.Document) : Family → Analysis
  | powerShell => withEvaluation command
      ((withDocument powerShellBase d).warn (scriptCautions d.body))
  | curl => (withDocument (curlBase command) d).warn
      (cautionIf (Command.pipesToShell command) .runsDownloadedCode)
  | wget => (withDocument (wgetBase command) d).warn
      (cautionIf (Command.pipesToShell command) .runsDownloadedFile)
  | _ => .unknown

/-- What it tells when there is none. -/
def refused (command : String) (f : Fetch.Failure) : Family → Analysis
  | powerShell => withEvaluation command
      ({ powerShellBase with code := some command }.warn [.notDownloaded, .runsRemoteCode])
  | curl => withReason (curlBase command) f
  | wget => withReason (wgetBase command) f
  | _ => .unknown

/-- A result that depends on nothing but one fetch of the first link of a
command. -/
inductive OfFetch (fetcher : Fetch.Fetcher) (command : String) (idle : Analysis)
    (shown : Fetch.Document → Analysis) (refused : Fetch.Failure → Analysis)
    (x : Fetch.Traced Analysis) : Prop
  | idle (hl : Link.ofCommand command = none) (hv : x.value = idle) (hc : x.calls = [])
  | shown {url : String} {d : Fetch.Document} (hl : Link.ofCommand command = some url)
      (hf : (fetcher.fetch url).value = .ok d) (hv : x.value = shown d)
      (hc : x.calls = (fetcher.fetch url).calls)
  | refused {url : String} {f : Fetch.Failure} (hl : Link.ofCommand command = some url)
      (hf : (fetcher.fetch url).value = .error f) (hv : x.value = refused f)
      (hc : x.calls = (fetcher.fetch url).calls)

/-- What is made of such a result is one. -/
theorem OfFetch.map {idle : Analysis} {shown : Fetch.Document → Analysis}
    {refused : Fetch.Failure → Analysis} (h : OfFetch fetcher command idle shown refused x)
    (g : Analysis → Analysis) :
    OfFetch fetcher command (g idle) (fun d => g (shown d)) (fun f => g (refused f)) (g <$> x) := by
  cases h with
  | idle hl hv hc =>
    exact .idle hl (by rw [Fetch.Traced.value_map, hv]) (by rw [Fetch.Traced.calls_map, hc])
  | shown hl hf hv hc =>
    exact .shown hl hf (by rw [Fetch.Traced.value_map, hv]) (by rw [Fetch.Traced.calls_map, hc])
  | refused hl hf hv hc =>
    exact .refused hl hf (by rw [Fetch.Traced.value_map, hv]) (by rw [Fetch.Traced.calls_map, hc])

/-- Without a link nothing was fetched. -/
theorem OfFetch.of_no_link {idle : Analysis} {shown : Fetch.Document → Analysis}
    {refused : Fetch.Failure → Analysis} (h : OfFetch fetcher command idle shown refused x)
    (hl : Link.ofCommand command = none) : x.value = idle ∧ x.calls = [] := by
  cases h with
  | idle _ hv hc => exact ⟨hv, hc⟩
  | shown hl' => rw [hl] at hl'; cases hl'
  | refused hl' => rw [hl] at hl'; cases hl'

/-- With one the requests are those of its fetch, and what is shown is its
document. -/
theorem OfFetch.of_link {idle : Analysis} {shown : Fetch.Document → Analysis}
    {refused : Fetch.Failure → Analysis} {url : String}
    (h : OfFetch fetcher command idle shown refused x)
    (hl : Link.ofCommand command = some url) :
    x.calls = (fetcher.fetch url).calls ∧
      ∀ d, (fetcher.fetch url).value = .ok d → x.value = shown d := by
  cases h with
  | idle hl' => rw [hl] at hl'; cases hl'
  | shown hl' hf hv hc =>
    rw [hl] at hl'; cases hl'
    refine ⟨hc, fun d hd => ?_⟩
    rw [hf] at hd; cases hd
    exact hv
  | refused hl' hf hv hc =>
    rw [hl] at hl'; cases hl'
    refine ⟨hc, fun d hd => ?_⟩
    rw [hf] at hd; cases hd

/-- And if there is no document, it is the reason. -/
theorem OfFetch.of_failure {idle : Analysis} {shown : Fetch.Document → Analysis}
    {refused : Fetch.Failure → Analysis} {url : String} {f : Fetch.Failure}
    (h : OfFetch fetcher command idle shown refused x)
    (hl : Link.ofCommand command = some url) (hf : (fetcher.fetch url).value = .error f) :
    x.value = refused f := by
  cases h with
  | idle hl' => rw [hl] at hl'; cases hl'
  | shown hl' hf' =>
    rw [hl] at hl'; cases hl'
    rw [hf] at hf'; cases hf'
  | refused hl' hf' hv =>
    rw [hl] at hl'; cases hl'
    rw [hf] at hf'; cases hf'
    exact hv

/-- **Two results of one fetch are related** if what they depend on it for
is related, case by case. -/
theorem OfFetch.relate {R : Analysis → Analysis → Prop} {other : String}
    {y : Fetch.Traced Analysis} {idle idle' : Analysis} {shown shown' : Fetch.Document → Analysis}
    {refused refused' : Fetch.Failure → Analysis}
    (hx : OfFetch fetcher command idle shown refused x)
    (hy : OfFetch fetcher other idle' shown' refused' y)
    (hlink : Link.ofCommand other = Link.ofCommand command)
    (hidle : Link.ofCommand command = none → R idle idle')
    (hshown : ∀ d, R (shown d) (shown' d)) (hrefused : ∀ f, R (refused f) (refused' f)) :
    x.calls = y.calls ∧ R x.value y.value := by
  rcases hl : Link.ofCommand command with - | url
  · obtain ⟨hxv, hxc⟩ := hx.of_no_link hl
    obtain ⟨hyv, hyc⟩ := hy.of_no_link (hlink.trans hl)
    rw [hxv, hyv, hxc, hyc]
    exact ⟨rfl, hidle hl⟩
  · obtain ⟨hxc, hxs⟩ := hx.of_link hl
    obtain ⟨hyc, hys⟩ := hy.of_link (hlink.trans hl)
    refine ⟨hxc.trans hyc.symm, ?_⟩
    rcases hf : (fetcher.fetch url).value with f | d
    · rw [hx.of_failure hl hf, hy.of_failure (hlink.trans hl) hf]
      exact hrefused f
    · rw [hxs d hf, hys d hf]
      exact hshown d

theorem ofFetch_download (fetcher : Fetch.Fetcher) (a : Analysis) (piped : Caution)
    (command : String) :
    OfFetch fetcher command a
      (fun d => (withDocument a d).warn (cautionIf (Command.pipesToShell command) piped))
      (withReason a) (download fetcher a piped command) := by
  rcases hl : Link.ofCommand command with - | url
  · exact .idle hl (by simp [download, hl]) (by simp [download, hl])
  rcases hf : (fetcher.fetch url).value with f | d
  · exact .refused hl hf (by simp [download, hl, hf]) (by simp [download, hl, hf])
  · exact .shown hl hf (by simp [download, hl, hf]) (by simp [download, hl, hf])

theorem ofFetch_powerShellDownload (fetcher : Fetch.Fetcher) (command : String) :
    OfFetch fetcher command { powerShellBase with code := some command }
      (fun d => (withDocument powerShellBase d).warn (scriptCautions d.body))
      (fun _ => { powerShellBase with code := some command }.warn [.notDownloaded, .runsRemoteCode])
      (powerShellDownload fetcher command) := by
  rcases hl : Link.ofCommand command with - | url
  · exact .idle hl (by simp [powerShellDownload, hl, powerShellBase])
      (by simp [powerShellDownload, hl])
  rcases hf : (fetcher.fetch url).value with f | d
  · exact .refused hl hf (by simp [powerShellDownload, hl, hf, powerShellBase])
      (by simp [powerShellDownload, hl, hf])
  rcases hp : Payload.cautionOf d.body with - | c
  · exact .shown hl hf (by simp [powerShellDownload, hl, hf, hp, powerShellBase, scriptCautions])
      (by simp [powerShellDownload, hl, hf, hp])
  · exact .shown hl hf (by simp [powerShellDownload, hl, hf, hp, powerShellBase, scriptCautions])
      (by simp [powerShellDownload, hl, hf, hp])

/-- **A family that downloads tells one of three things**, as the fetch of
the first link has it. -/
theorem Tells.ofFetch (h : Tells registry fetcher command family x)
    (hd : family.downloads = true) :
    OfFetch fetcher command (family.idle command) (fun d => family.shown command d)
      (fun f => family.refused command f) x := by
  cases h with
  | powerShell hw => exact (ofFetch_powerShellDownload fetcher command).map (withEvaluation command)
  | curl hb => exact ofFetch_download fetcher (curlBase command) _ command
  | wget hb => exact ofFetch_download fetcher (wgetBase command) _ command
  | _ => cases hd

end Family

end ShellPreview
