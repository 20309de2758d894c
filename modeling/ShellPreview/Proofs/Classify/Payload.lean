import ShellPreview.Proofs.Classify.WellFormed
import ShellPreview.Proofs.Payload.Rule
/-!
# Classifying — when a payload is given

A payload is given for a document that is binary data by rule, and for no
other. A document is longer than the settings ask for; if that is what the
rule asks for as well, its length does not matter any more, and what counts
is how the document begins and how many control characters it has.
-/

namespace ShellPreview

namespace Family

variable {family : Family} {a : Analysis}

theorem payload_withDocument (ha : a.payload = none) (d : Fetch.Document) :
    (withDocument a d).payload =
      (Payload.cautionOf d.body).map (Payload.ofCaution d.body (some d.resolvedUrl)) := by
  rw [withDocument]
  split
  · next caution hcaution => rw [hcaution, Option.map_some, Analysis.payload_warn]
  · next hcaution => rw [hcaution, Option.map_none, ha]

theorem payload_shown (hd : family.downloads = true) (command : String) (d : Fetch.Document) :
    (family.shown command d).payload =
      (Payload.cautionOf d.body).map (Payload.ofCaution d.body (some d.resolvedUrl)) := by
  obtain ⟨base, hbase, hshown⟩ := exists_annotates_shown hd command d
  rw [hshown.payload, payload_withDocument (hbase ⟨[], []⟩).payload]

/-- **A document is shown with a payload** exactly if it is taken for a binary
file. -/
theorem payload_shown_eq_some_iff (hd : family.downloads = true) (command : String)
    (d : Fetch.Document) (hlong : d.body.length < 2 ^ 52) (p : Payload) :
    (family.shown command d).payload = some p ↔
      Payload.IsData d.body ∧ p = Payload.ofContent d.body (some d.resolvedUrl) := by
  rw [payload_shown hd, ← Payload.isSome_cautionOf_iff hlong]
  rcases hcaution : Payload.cautionOf d.body with - | caution
  · exact iff_of_false nofun (fun h => Bool.false_ne_true h.1)
  · rw [Payload.ofContent_of_some hcaution, Option.map_some, Option.some_inj,
      Option.isSome_some, and_iff_right rfl, eq_comm]

end Family

namespace Classifier

variable {c : Classifier} {command url : String} {d : Fetch.Document}

/-- What a classification says of a document is what the first family says of
it, with cautions. -/
theorem classify_of_document (h : c.DownloadsFrom (Text.trimmed command) url)
    (hf : (c.fetcher.fetch url).value = .ok d) : ∃ family : Family, family.downloads = true ∧
      (c.classify command).value = (family.shown (Text.trimmed command) d).warn
        (Safety.cautions (Text.trimmed command)) := by
  obtain ⟨front, family, a, hfirst, hd, hl⟩ := h
  obtain ⟨x, hx, rfl⟩ := hfirst.tells
  refine ⟨family, hd, ?_⟩
  rw [(classify_of_firstMatch hfirst).1, ((hx.ofFetch hd).of_link hl).2 d hf]

/-- **Payloads follow the rule.** Of a text from a source, binary data or not,
a payload says what the rule says and what belongs to that. If the first
family to know a command downloads and its fetch gives a document, where
documents have more than a hundred characters, the classification gives a
payload exactly if the document begins like data that is known by its
beginning or has more than three tenths of control characters; the payload
is that of the document and of the place where its URL leads. -/
theorem payload_follows_rule :
    (∀ content source, content.length < 2 ^ 52 →
        (Payload.ofContent content source).Describes content source) ∧
      ∀ (c : Classifier) (command url : String) (d : Fetch.Document),
        c.DownloadsFrom (Text.trimmed command) url → (c.fetcher.fetch url).value = .ok d →
        100 ≤ c.fetcher.settings.leastLength → d.body.length < 2 ^ 52 →
        ∀ p, (c.classify command).value.payload = some p ↔
          (Payload.Signed d.body ∨ Payload.Noisy d.body) ∧
            p = Payload.ofContent d.body (some d.resolvedUrl) := by
  refine ⟨fun content source hlong => Payload.describes_ofContent source hlong, ?_⟩
  intro c command url d hdown hf hleast hlong p
  obtain ⟨family, hd, hvalue⟩ := classify_of_document hdown hf
  have hguard : 100 < d.body.length := hleast.trans_lt (Fetch.Fetcher.long_of_fetch hf).2
  rw [hvalue, Analysis.payload_warn, Family.payload_shown_eq_some_iff hd _ d hlong,
    Payload.IsData, and_iff_right hguard]

/-- A hundred and ten characters, some of which are control characters. -/
def hissing (noise : Nat) : String :=
  String.ofList (List.replicate noise '\x01' ++ List.replicate (110 - noise) 'a')

theorem length_hissing {noise : Nat} (h : noise ≤ 110) : (hissing noise).length = 110 := by
  simp [hissing, h]

theorem noisy_hissing_iff {noise : Nat} (h : noise ≤ 110) :
    Payload.Noisy (hissing noise) ↔ 33 < noise := by
  have hcount : (hissing noise).toList.countP Payload.isControl = noise := by
    rw [hissing, String.toList_ofList, List.countP_append, List.countP_replicate,
      List.countP_replicate]
    rfl
  rw [Payload.Noisy, length_hissing h, hcount]
  omega

theorem not_signed_hissing {noise : Nat} (h : 0 < noise) : ¬ Payload.Signed (hissing noise) := by
  have hfront : (hissing noise).toList.head? = some '\x01' := by
    rw [hissing, String.toList_ofList, List.head?_append, List.head?_replicate, if_neg h.ne']
    rfl
  rintro ⟨s, hs, behind, heq⟩
  rw [← heq] at hfront
  have hother : ∀ s ∈ Payload.signatures, s.toList ≠ [] ∧ s.toList.head? ≠ some '\x01' := by
    decide
  obtain ⟨hsome, hhead⟩ := hother s hs
  rw [List.head?_append_of_ne_nil _ hsome] at hfront
  exact hhead hfront

/-- A classifier that knows curl and hears nothing but hissing. -/
def hearing (noise : Nat) : Classifier :=
  ⟨⟨[], []⟩, .showing (hissing noise), [.curl]⟩

theorem downloadsFrom_hearing (noise : Nat) :
    (hearing noise).DownloadsFrom (Text.trimmed "curl http://a") "http://a" := by
  have htells : Family.Tells (hearing noise).registry (hearing noise).fetcher
      (Text.trimmed "curl http://a") .curl _ := .curl (by decide)
  exact ⟨[], .curl, _, ⟨⟨[], rfl⟩, fun g hg => absurd hg List.not_mem_nil,
    htells.recognize_eq.1⟩, rfl, by decide⟩

theorem fetch_hearing {noise : Nat} (hsome : 0 < noise) (h : noise ≤ 110) :
    ((hearing noise).fetcher.fetch "http://a").value =
      .ok ⟨"http://a", "http://a", "direct", hissing noise⟩ := by
  refine Fetch.Fetcher.fetch_showing ⟨'\x01', ?_, by decide⟩ ?_ "http://a"
  · rw [hissing, String.toList_ofList, List.mem_append, List.mem_replicate]
    exact .inl ⟨hsome.ne', rfl⟩
  · rw [length_hissing h]
    omega

/-- Of a hundred and ten characters thirty-three are three tenths, and one
more makes a payload. -/
theorem payload_of_hissing :
    (Payload.ofContent (hissing 33) (some "http://a")).Describes (hissing 33) (some "http://a") ∧
      (∀ p, ((hearing 33).classify "curl http://a").value.payload ≠ some p) ∧
      ((hearing 34).classify "curl http://a").value.payload =
        some (Payload.ofContent (hissing 34) (some "http://a")) := by
  have hlong : ∀ noise ≤ 110, (hissing noise).length < 2 ^ 52 := by
    intro noise hnoise
    rw [length_hissing hnoise]
    omega
  refine ⟨payload_follows_rule.1 _ _ (hlong 33 (by omega)), fun p hp => ?_, ?_⟩
  · have hrule := payload_follows_rule.2 (hearing 33) "curl http://a" "http://a" _
      (downloadsFrom_hearing 33) (fetch_hearing (by omega) (by omega)) (Nat.le_refl 100)
      (hlong 33 (by omega)) p
    rcases (hrule.mp hp).1 with hsigned | hnoisy
    · exact not_signed_hissing (by omega) hsigned
    · exact absurd ((noisy_hissing_iff (by omega)).mp hnoisy) (by omega)
  · have hrule := payload_follows_rule.2 (hearing 34) "curl http://a" "http://a" _
      (downloadsFrom_hearing 34) (fetch_hearing (by omega) (by omega)) (Nat.le_refl 100)
      (hlong 34 (by omega))
    exact (hrule _).mpr ⟨.inr ((noisy_hissing_iff (by omega)).mpr (by omega)), rfl⟩

end Classifier

end ShellPreview
