import ShellPreview.Proofs.Classify.Dispatch
import ShellPreview.Proofs.Fetch.Order
/-!
# Classifying — which requests are made

Requests are made for one family only, the first that knows the command,
and only if it downloads and the command has a link. They are then those
of one fetch of the first link, and a document that comes of it is shown
as it is.
-/

namespace ShellPreview

namespace Family

variable {registry : Registry} {fetcher : Fetch.Fetcher} {command : String}
variable {family : Family} {x : Fetch.Traced Analysis}

/-! ## The requests of a family -/

/-- A family that does not download makes no request. -/
theorem Tells.calls_of_not_downloads (h : Tells registry fetcher command family x)
    (hd : family.downloads = false) : x.calls = [] := by
  cases h with
  | powerShell => cases hd
  | curl => cases hd
  | wget => cases hd
  | _ => rfl

/-- No family makes a request for a command without a link. -/
theorem Tells.calls_of_no_link (h : Tells registry fetcher command family x)
    (hl : Link.ofCommand command = none) : x.calls = [] := by
  rcases hd : family.downloads with - | -
  · exact h.calls_of_not_downloads hd
  · exact ((h.ofFetch hd).of_no_link hl).2

/-! ## What is shown of a document -/

theorem code_withDocument (a : Analysis) (d : Fetch.Document) :
    (withDocument a d).code = some d.body := by
  rw [withDocument]
  split <;> rfl

theorem links_withDocument (a : Analysis) (d : Fetch.Document) :
    (withDocument a d).links = Link.ofDocument d.body := by
  rw [withDocument]
  split <;> rfl

theorem code_withEvaluation (command : String) (a : Analysis) :
    (withEvaluation command a).code = a.code := by
  rw [withEvaluation]
  split <;> rfl

theorem links_withEvaluation (command : String) (a : Analysis) :
    (withEvaluation command a).links = a.links := by
  rw [withEvaluation]
  split <;> rfl

/-- **A document is shown as it is**, and the links are its links. -/
theorem shown_document (hd : family.downloads = true) (command : String) (d : Fetch.Document) :
    (family.shown command d).code = some d.body ∧
      (family.shown command d).links = Link.ofDocument d.body := by
  cases family with
  | powerShell =>
    simp only [shown, code_withEvaluation, links_withEvaluation, Analysis.code_warn,
      Analysis.links_warn, code_withDocument, links_withDocument, and_self]
  | curl =>
    simp only [shown, Analysis.code_warn, Analysis.links_warn, code_withDocument,
      links_withDocument, and_self]
  | wget =>
    simp only [shown, Analysis.code_warn, Analysis.links_warn, code_withDocument,
      links_withDocument, and_self]
  | _ => cases hd

end Family

namespace Classifier

/-- A classification that downloads nothing makes no request. -/
theorem calls_of_not_downloadsFrom {c : Classifier} {command : String}
    (h : ¬ ∃ url, c.DownloadsFrom (Text.trimmed command) url) :
    (c.classify command).calls = [] := by
  rcases c.firstMatch_or_noMatch (Text.trimmed command) with ⟨front, family, a, hfirst⟩ | hno
  · obtain ⟨x, hx, -⟩ := hfirst.tells
    rw [(classify_of_firstMatch hfirst).2, hx.recognize_eq.2]
    rcases hd : family.downloads with - | -
    · exact hx.calls_of_not_downloads hd
    rcases hl : Link.ofCommand (Text.trimmed command) with - | url
    · exact hx.calls_of_no_link hl
    · exact absurd ⟨url, front, family, a, hfirst, hd, hl⟩ h
  · exact (classify_of_noMatch hno).2

/-- **The requests of a classification are confined.** If the first family
to know the trimmed command downloads and the command has a first link,
the families in front of it make no request and its own are those of one
fetch of that link, so at most one more than there are ways; a document
that the fetch gives is the code, and its links are the links. Otherwise
no request is made. -/
theorem classify_requests_one_fetch (c : Classifier) (command : String) :
    (∃ front family a url, c.FirstMatch (Text.trimmed command) front family a ∧
        family.downloads = true ∧ Link.ofCommand (Text.trimmed command) = some url ∧
        (∀ g ∈ front, (g.recognize c.registry c.fetcher (Text.trimmed command)).calls = []) ∧
        (c.classify command).calls = (c.fetcher.fetch url).calls ∧
        (c.classify command).calls.length ≤ 1 + c.fetcher.settings.routes.length ∧
        ∀ d, (c.fetcher.fetch url).value = .ok d →
          (c.classify command).value.code = some d.body ∧
            (c.classify command).value.links = Link.ofDocument d.body) ∨
      ((¬ ∃ url, c.DownloadsFrom (Text.trimmed command) url) ∧
        (c.classify command).calls = []) := by
  by_cases hdown : ∃ url, c.DownloadsFrom (Text.trimmed command) url
  · obtain ⟨url, front, family, a, h, hd, hl⟩ := hdown
    obtain ⟨x, hx, hxa⟩ := h.tells
    obtain ⟨hvalue, hcalls⟩ := classify_of_firstMatch h
    obtain ⟨hfetch, hshown⟩ := (hx.ofFetch hd).of_link hl
    rw [hx.recognize_eq.2, hfetch] at hcalls
    refine .inl ⟨front, family, a, url, h, hd, hl,
      fun g hg => Family.calls_of_value_eq_none (h.2.1 g hg), hcalls, ?_, fun d hf => ?_⟩
    · rw [hcalls]
      exact c.fetcher.length_calls_fetch_le url
    · rw [hvalue, Analysis.code_warn, Analysis.links_warn, ← hxa, hshown d hf]
      exact Family.shown_document hd _ d
  · exact .inr ⟨hdown, calls_of_not_downloadsFrom hdown⟩

end Classifier

end ShellPreview
