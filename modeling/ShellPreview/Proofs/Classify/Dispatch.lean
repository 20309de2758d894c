import ShellPreview.Proofs.Classify.Family
/-!
# Classifying — the first family that knows the command

The families are tried in order. A family that declines changes nothing,
so a classification is what the first other family says, with the
cautions for any command behind it, and its requests are that family's.
-/

namespace ShellPreview

namespace Classifier

/-- A family is the first of the classifier's to know the command: it
says `a`, and those in front of it decline. -/
def FirstMatch (c : Classifier) (command : String) (front : List Family) (family : Family)
    (a : Analysis) : Prop :=
  (∃ back, c.families = front ++ family :: back) ∧
    (∀ g ∈ front, (g.recognize c.registry c.fetcher command).value = none) ∧
    (family.recognize c.registry c.fetcher command).value = some a

/-- No family of the classifier knows the command. -/
def NoMatch (c : Classifier) (command : String) : Prop :=
  ∀ g ∈ c.families, (g.recognize c.registry c.fetcher command).value = none

/-- The first family to know a command downloads, and the command has a
first link. -/
def DownloadsFrom (c : Classifier) (command url : String) : Prop :=
  ∃ front family a, c.FirstMatch command front family a ∧ family.downloads = true ∧
    Link.ofCommand command = some url

variable {c : Classifier} {command : String} {front : List Family}
variable {family : Family} {a : Analysis}

/-! ## Trying the families -/

/-- A family that declines is passed over. -/
theorem firstOf_cons_of_declines (families : List Family)
    (h : (family.recognize c.registry c.fetcher command).value = none) :
    (c.firstOf command (family :: families)).value = (c.firstOf command families).value ∧
      (c.firstOf command (family :: families)).calls = (c.firstOf command families).calls := by
  have hcalls := Family.calls_of_value_eq_none h
  simp [firstOf, h, hcalls]

/-- So are any number of them. -/
theorem firstOf_append_of_decline (families : List Family)
    (h : ∀ g ∈ front, (g.recognize c.registry c.fetcher command).value = none) :
    (c.firstOf command (front ++ families)).value = (c.firstOf command families).value ∧
      (c.firstOf command (front ++ families)).calls = (c.firstOf command families).calls := by
  induction front with
  | nil => exact ⟨rfl, rfl⟩
  | cons g front ih =>
    have hstep := firstOf_cons_of_declines (front ++ families)
      (h g List.mem_cons_self)
    have hrest := ih fun k hk => h k (List.mem_cons_of_mem g hk)
    exact ⟨hstep.1.trans hrest.1, hstep.2.trans hrest.2⟩

/-- A family that knows the command has its say. -/
theorem firstOf_cons_of_knows (families : List Family)
    (h : (family.recognize c.registry c.fetcher command).value = some a) :
    (c.firstOf command (family :: families)).value = some (family, a) ∧
      (c.firstOf command (family :: families)).calls =
        (family.recognize c.registry c.fetcher command).calls := by
  simp [firstOf, h]

/-- **There is a first family that knows the command, or none does.** -/
theorem firstMatch_or_noMatch (c : Classifier) (command : String) :
    (∃ front family a, c.FirstMatch command front family a) ∨ c.NoMatch command := by
  rcases hfind : c.families.find?
      fun g => (g.recognize c.registry c.fetcher command).value.isSome with - | family
  · refine .inr fun g hg => ?_
    have hnone := List.find?_eq_none.mp hfind g hg
    simpa using hnone
  · obtain ⟨hsome, front, back, hsplit, hfront⟩ := List.find?_eq_some_iff_append.mp hfind
    obtain ⟨a, ha⟩ := Option.isSome_iff_exists.mp hsome
    refine .inl ⟨front, family, a, ⟨back, hsplit⟩, fun g hg => ?_, ha⟩
    have hnone := hfront g hg
    simpa using hnone

/-- A family that knows the command stands among those that are tried. -/
theorem FirstMatch.not_noMatch (h : c.FirstMatch command front family a) :
    ¬ c.NoMatch command := by
  obtain ⟨⟨back, hsplit⟩, -, ha⟩ := h
  intro hno
  have hnone := hno family (by simp [hsplit])
  rw [ha] at hnone
  cases hnone

/-- What the first family to know a command says is one of the things it
can tell. -/
theorem FirstMatch.tells (h : c.FirstMatch command front family a) :
    ∃ x, Family.Tells c.registry c.fetcher command family x ∧ x.value = a :=
  Family.tells_of_recognize h.2.2

/-! ## The whole classification -/

/-- **A classification is what the first family says**, with the cautions
for any command behind it. -/
theorem classify_of_firstMatch (h : c.FirstMatch (Text.trimmed command) front family a) :
    (c.classify command).value = a.warn (Safety.cautions (Text.trimmed command)) ∧
      (c.classify command).calls =
        (family.recognize c.registry c.fetcher (Text.trimmed command)).calls := by
  obtain ⟨⟨back, hsplit⟩, hfront, ha⟩ := h
  have hskip := firstOf_append_of_decline (family :: back) hfront
  have hsay := firstOf_cons_of_knows back ha
  rw [← hsplit] at hskip
  have hvalue := hskip.1.trans hsay.1
  have hcalls := hskip.2.trans hsay.2
  simp [classify, classifyTrimmed, hvalue, hcalls]

/-- A command that no family knows is unknown. -/
theorem classify_of_noMatch (h : c.NoMatch (Text.trimmed command)) :
    (c.classify command).value = Analysis.unknown.warn (Safety.cautions (Text.trimmed command)) ∧
      (c.classify command).calls = [] := by
  have hskip := firstOf_append_of_decline [] h
  rw [List.append_nil] at hskip
  have hvalue : (c.firstOf (Text.trimmed command) c.families).value = none := hskip.1
  have hcalls : (c.firstOf (Text.trimmed command) c.families).calls = [] := hskip.2
  simp [classify, classifyTrimmed, hvalue, hcalls]

end Classifier

end ShellPreview
