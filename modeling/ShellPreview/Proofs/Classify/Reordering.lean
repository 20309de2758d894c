import ShellPreview.Proofs.Classify.Family
import ShellPreview.Registry.Default
/-!
# Classifying — the order of the families

A family that declines is as good as absent, and the first family to know
a command has the last word. So the order of two families counts only for
commands that both of them know, and a family that is tried a second time
says nothing new (`classify_reordered`). Curl, wget, Node and, with the
built-in table, the programming tools know no command in common: each
knows commands by first letters of its own (`declines_or_declines`).
-/

namespace ShellPreview

/-- What a result comes to depends on the result alone. -/
theorem Fetch.Traced.bind_congr {α β : Type} {x : Traced α} {f g : α → Traced β}
    (h : f x.value = g x.value) : x >>= f = x >>= g := by
  show bind x f = bind x g
  rw [bind, bind, h]

namespace Family

/-- The families that know no command in common. -/
def exclusive : List Family :=
  [.curl, .wget, .npm, .programmingTool]

/-- The letters with which the commands of such a family begin. -/
def initials : Family → List Char
  | curl => ['c']
  | wget => ['w']
  | npm => ['n']
  | programmingTool => ['p', 'f', 'd']
  | _ => []

/-- No letter is one of two families. -/
theorem initials_disjoint : ∀ f ∈ exclusive, ∀ g ∈ exclusive, f ≠ g →
    ∀ i ∈ f.initials, i ∉ g.initials := by
  simp [exclusive, initials]

/-- A command that begins with a text begins with its first letter. -/
theorem head?_of_begins {command needle : String} {i : Char} (hi : needle.toList.head? = some i)
    (h : Text.begins command needle = true) : command.toList.head? = some i := by
  obtain ⟨rest, hrest⟩ := Text.begins_iff.mp h
  rw [← hrest, List.head?_append, hi]
  rfl

variable {registry : Registry} {fetcher : Fetch.Fetcher} {command : String}
variable {family other : Family} {x : Fetch.Traced Analysis}

/-- A command of a programming tool begins as the word of the tool does. -/
theorem head?_of_toolFor {t : Tool} (htools : registry.tools = Registry.defaultTools)
    (ht : registry.toolFor command = some t) :
    ∃ i ∈ programmingTool.initials, command.toList.head? = some i := by
  have hinitials : ∀ t ∈ Registry.defaultTools, ∃ i ∈ programmingTool.initials,
      t.token.toList.head? = some i := by
    simp [Registry.defaultTools, initials]
  have hserves := List.find?_some ht
  have hmem : t ∈ Registry.defaultTools := htools ▸ List.mem_of_find?_eq_some ht
  obtain ⟨i, hi, htoken⟩ := hinitials t hmem
  refine ⟨i, hi, ?_⟩
  rw [Tool.serves, Bool.or_eq_true, beq_iff_eq] at hserves
  rcases hserves with rfl | hbegins
  · exact htoken
  · refine head?_of_begins ?_ hbegins
    rw [String.toList_append, List.head?_append, htoken]
    rfl

/-- **A family knows commands by their first letter.** -/
theorem Tells.head? (h : Tells registry fetcher command family x) (hf : family ∈ exclusive)
    (htools : family = .programmingTool → registry.tools = Registry.defaultTools) :
    ∃ i ∈ family.initials, command.toList.head? = some i := by
  cases h with
  | tool ht => exact head?_of_toolFor (htools rfl) ht
  | curl hb => exact ⟨'c', List.mem_singleton_self _, head?_of_begins rfl hb⟩
  | wget hb => exact ⟨'w', List.mem_singleton_self _, head?_of_begins rfl hb⟩
  | npm hb => exact ⟨'n', List.mem_singleton_self _, head?_of_begins rfl hb⟩
  | npx hb => exact ⟨'n', List.mem_singleton_self _, head?_of_begins rfl hb⟩
  | manager | powerShell | inline => exact absurd hf (by decide)

/-- So of two such families one declines, whatever the command is. -/
theorem declines_or_declines (hf : family ∈ exclusive) (hg : other ∈ exclusive)
    (hne : family ≠ other)
    (htools : .programmingTool ∈ [family, other] → registry.tools = Registry.defaultTools) :
    family.recognize registry fetcher command = pure none ∨
      other.recognize registry fetcher command = pure none := by
  rcases tells_or_declines registry fetcher command family with ⟨x, hx⟩ | hnone
  · rcases tells_or_declines registry fetcher command other with ⟨y, hy⟩ | hnone
    · obtain ⟨i, hi, hhead⟩ := hx.head? hf fun heq => htools (by simp [heq])
      obtain ⟨j, hj, hhead'⟩ := hy.head? hg fun heq => htools (by simp [heq])
      obtain rfl : i = j := Option.some.inj (hhead.symm.trans hhead')
      exact absurd hj (initials_disjoint family hf other hg hne i hi)
    · exact .inr hnone
  · exact .inl hnone

end Family

namespace Classifier

variable {c : Classifier} {command : String} {f g : Family} {front middle back xs ys : List Family}

/-! ## The first of the families -/

/-- Goes on with `next` if a family declined. -/
def orElse (f : Family) (next : Fetch.Traced (Option (Family × Analysis))) :
    Option Analysis → Fetch.Traced (Option (Family × Analysis))
  | some a => pure (some (f, a))
  | none => next

theorem firstOf_cons (c : Classifier) (command : String) (f : Family) (fs : List Family) :
    c.firstOf command (f :: fs) =
      f.recognize c.registry c.fetcher command >>= orElse f (c.firstOf command fs) :=
  rfl

/-- What comes of the families behind others comes of all of them. -/
theorem firstOf_append_congr (front : List Family)
    (h : c.firstOf command xs = c.firstOf command ys) :
    c.firstOf command (front ++ xs) = c.firstOf command (front ++ ys) := by
  induction front with
  | nil => exact h
  | cons g front ih => rw [List.cons_append, List.cons_append, firstOf_cons, ih, firstOf_cons]

/-- **A family that declines may be left out.** -/
theorem firstOf_without (front back : List Family)
    (h : f.recognize c.registry c.fetcher command = pure none) :
    c.firstOf command (front ++ f :: back) = c.firstOf command (front ++ back) := by
  refine firstOf_append_congr front ?_
  rw [firstOf_cons, h]
  rfl

/-- Behind a family that knows the command none is tried. -/
theorem firstOf_cons_congr {x : Fetch.Traced Analysis}
    (h : f.Tells c.registry c.fetcher command x) (xs ys : List Family) :
    c.firstOf command (f :: xs) = c.firstOf command (f :: ys) := by
  rw [firstOf_cons, firstOf_cons]
  refine Fetch.Traced.bind_congr ?_
  rw [h.recognize_eq.1]
  rfl

/-- **Two neighbours of which one declines may be exchanged.** -/
theorem firstOf_exchange (front back : List Family)
    (h : f.recognize c.registry c.fetcher command = pure none ∨
      g.recognize c.registry c.fetcher command = pure none) :
    c.firstOf command (front ++ f :: g :: back) = c.firstOf command (front ++ g :: f :: back) := by
  refine firstOf_append_congr front ?_
  rcases h with hf | hg
  · calc c.firstOf command (f :: g :: back)
        = c.firstOf command (g :: back) := firstOf_without [] _ hf
      _ = c.firstOf command (g :: f :: back) := (firstOf_without [g] _ hf).symm
  · calc c.firstOf command (f :: g :: back)
        = c.firstOf command (f :: back) := firstOf_without [f] _ hg
      _ = c.firstOf command (g :: f :: back) := (firstOf_without [] _ hg).symm

/-- **A family need not be tried again.** -/
theorem firstOf_repeated (c : Classifier) (command : String) (front middle back : List Family)
    (f : Family) : c.firstOf command (front ++ f :: (middle ++ f :: back)) =
      c.firstOf command (front ++ f :: (middle ++ back)) := by
  rcases Family.tells_or_declines c.registry c.fetcher command f with ⟨x, hx⟩ | hnone
  · exact firstOf_append_congr front (firstOf_cons_congr hx _ _)
  · have hlater := firstOf_without (front ++ f :: middle) back hnone
    simpa only [List.append_assoc, List.cons_append] using hlater

/-! ## The whole classification -/

variable {r : Registry} {fetcher : Fetch.Fetcher}

/-- Only the families that are tried matter of a classifier's families. -/
theorem firstOf_families (fs gs xs : List Family) (command : String) :
    firstOf ⟨r, fetcher, fs⟩ command xs = firstOf ⟨r, fetcher, gs⟩ command xs := by
  induction xs with
  | nil => rfl
  | cons f xs ih => rw [firstOf_cons, ih, firstOf_cons]

/-- A classification is made of the first family to know the command. -/
theorem classify_congr
    (h : firstOf ⟨r, fetcher, xs⟩ (Text.trimmed command) xs =
      firstOf ⟨r, fetcher, xs⟩ (Text.trimmed command) ys) :
    classify ⟨r, fetcher, xs⟩ command = classify ⟨r, fetcher, ys⟩ command := by
  rw [firstOf_families xs ys ys] at h
  simp only [classify, classifyTrimmed, h]

/-- **The order of exclusive families does not count, nor do repetitions.**
Exchanging two neighbours among curl, wget, Node and the programming tools
changes nothing of a classification — neither what it says nor its
requests — whatever stands in front of them and behind; for the
programming tools the table of tools is the built-in one. And a family may
always be left out behind itself. -/
theorem classify_reordered (r : Registry) (fetcher : Fetch.Fetcher) (front back : List Family)
    (command : String) :
    (∀ f ∈ Family.exclusive, ∀ g ∈ Family.exclusive,
      (.programmingTool ∈ [f, g] → r.tools = Registry.defaultTools) →
        classify ⟨r, fetcher, front ++ f :: g :: back⟩ command =
          classify ⟨r, fetcher, front ++ g :: f :: back⟩ command) ∧
    ∀ (f : Family) (middle : List Family),
      classify ⟨r, fetcher, front ++ f :: (middle ++ f :: back)⟩ command =
        classify ⟨r, fetcher, front ++ f :: (middle ++ back)⟩ command := by
  refine ⟨fun f hf g hg htools => ?_, fun f middle => ?_⟩
  · by_cases hne : f = g
    · rw [hne]
    · exact classify_congr (firstOf_exchange front back
        (Family.declines_or_declines hf hg hne htools))
  · exact classify_congr (firstOf_repeated _ _ front middle back f)

/-- Node and the programming tools, and curl twice. -/
theorem classify_reordered_samples :
    .npm ∈ Family.exclusive ∧ .programmingTool ∈ Family.exclusive ∧
    (classify ⟨⟨[], Registry.defaultTools⟩, ⟨.offline, .default, 0⟩,
      [.powerShell] ++ .npm :: .programmingTool :: [.wget]⟩ "python3 run.py").value.kind =
        "Python 3 - Programming Tool" ∧
    (classify ⟨⟨[], []⟩, ⟨.offline, .default, 0⟩,
      [.npm] ++ .curl :: ([.wget] ++ .curl :: [])⟩ "curl --version").value.kind =
        "cURL - HTTP Download" := by
  have hnpm : .npm ∈ Family.exclusive := by decide
  have htool : .programmingTool ∈ Family.exclusive := by decide
  refine ⟨hnpm, htool, ?_, ?_⟩
  · rw [(classify_reordered ⟨[], Registry.defaultTools⟩ _ [.powerShell] [.wget] _).1
      .npm hnpm .programmingTool htool fun _ => rfl]
    decide
  · rw [(classify_reordered _ _ [.npm] [] _).2 .curl [.wget]]
    decide

end Classifier

end ShellPreview
