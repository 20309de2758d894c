import ShellPreview.Command
import ShellPreview.Proofs.Text.Words
/-!
# Options among the words of a command

An option is given by a word: its long name, or a cluster of letters that
has its letter (`hasFlag_iff`). Wget's output is given by a word or by two
that follow each other (`writesToStdout_iff`), so it can be read off two
parts of a command if the second one does not begin with a hyphen that
stands alone (`sendsToStdout_append_iff`).
-/

namespace ShellPreview.Command

variable {letter : Char} {long : String} {word : List Char} {next : Option (List Char)}
variable {words ws vs : List (List Char)} {command : String}

/-- The letters of a word that is a cluster of short options. -/
def Cluster (word letters : List Char) : Prop :=
  word = '-' :: letters ∧ letters.head? ≠ some '-'

/-- The word gives an option, by its long name or as one letter of a
cluster. -/
def GivesOption (letter : Char) (long : String) (word : List Char) : Prop :=
  word = long.toList ∨ ∃ letters, Cluster word letters ∧ letter ∈ letters

/-- One of the words gives an option. -/
def Gives (letter : Char) (long : String) (words : List (List Char)) : Prop :=
  ∃ word ∈ words, GivesOption letter long word

/-- The word, with the one behind it, sends a document to the standard
output: by a long name, as the last two letters of a cluster, or as the
last one with a hyphen behind it. -/
def Outputs (word : List Char) (next : Option (List Char)) : Prop :=
  word = "--output-document=-".toList ∨
    word = "--output-document".toList ∧ next = some ['-'] ∨
    ∃ letters, Cluster word letters ∧
      (['O', '-'] <:+ letters ∨ ['O'] <:+ letters ∧ next = some ['-'])

/-- One of the words, with the one behind it, sends a document to the
standard output. -/
def SendsToStdout (words : List (List Char)) : Prop :=
  ∃ front word behind, words = front ++ word :: behind ∧ Outputs word behind.head?

/-! ## One word -/

theorem cluster_cons {letters : List Char} (h : letters.head? ≠ some '-') :
    Cluster ('-' :: letters) letters :=
  ⟨rfl, h⟩

theorem Cluster.eq {letters letters' : List Char} (h : Cluster ('-' :: letters) letters') :
    letters' = letters :=
  (List.cons.inj h.1).2.symm

/-- A long name is no cluster. -/
theorem not_cluster_long (name letters : List Char) : ¬Cluster ('-' :: '-' :: name) letters := by
  rintro h
  obtain rfl := h.eq
  exact h.2 rfl

theorem isCluster_iff :
    isCluster letter word = true ↔ ∃ letters, Cluster word letters ∧ letter ∈ letters := by
  unfold isCluster
  split
  · refine iff_of_false nofun ?_
    rintro ⟨letters, hcluster, -⟩
    exact not_cluster_long _ _ hcluster
  · next letters hdash =>
    have hhead : letters.head? ≠ some '-' := fun hhead =>
      (List.head?_eq_some_iff.mp hhead).elim hdash
    rw [List.contains_iff_mem]
    constructor
    · exact fun hmem => ⟨letters, cluster_cons hhead, hmem⟩
    · rintro ⟨letters', hcluster, hmem⟩
      exact hcluster.eq ▸ hmem
  · next hdash =>
    refine iff_of_false nofun ?_
    rintro ⟨letters, hcluster, -⟩
    exact hdash letters hcluster.1

/-- **An option is read off the words that give it.** -/
theorem hasFlag_iff : hasFlag command letter long = true ↔
    Gives letter long (Text.words command.toList) := by
  simp only [hasFlag, List.any_eq_true, Bool.or_eq_true, beq_iff_eq, isCluster_iff, Gives,
    GivesOption]

/-- The hyphen of a cluster is not among its last letters. -/
theorem suffix_cluster_iff {o : Char} {os letters : List Char} (ho : o ≠ '-') :
    o :: os <:+ '-' :: letters ↔ o :: os <:+ letters := by
  rw [List.suffix_cons_iff]
  exact or_iff_right fun heq => ho (List.cons.inj heq).1

theorem isOutputWord_iff : isOutputWord word next = true ↔ Outputs word next := by
  have ho : 'O' ≠ '-' := by decide
  unfold isOutputWord
  split
  · next heq => exact iff_of_true rfl (.inl heq)
  split
  · next hne heq =>
    rw [beq_iff_eq]
    constructor
    · exact fun hnext => .inr (.inl ⟨heq, hnext⟩)
    · rintro (hword | ⟨-, hnext⟩ | ⟨letters, hcluster, -⟩)
      · exact absurd hword hne
      · exact hnext
      · rw [heq] at hcluster
        exact absurd hcluster (not_cluster_long _ letters)
  · next hne hne' =>
    rw [Outputs, or_iff_right hne, or_iff_right fun h => hne' h.1]
    split
    · refine iff_of_false nofun ?_
      rintro ⟨letters, hcluster, -⟩
      exact not_cluster_long _ _ hcluster
    · next letters hdash =>
      have hhead : letters.head? ≠ some '-' := fun hhead =>
        (List.head?_eq_some_iff.mp hhead).elim hdash
      rw [Bool.or_eq_true, Bool.and_eq_true, List.isSuffixOf_iff_suffix, List.isSuffixOf_iff_suffix,
        beq_iff_eq, suffix_cluster_iff ho, suffix_cluster_iff ho]
      constructor
      · exact fun hlast => ⟨letters, cluster_cons hhead, hlast⟩
      · rintro ⟨letters', hcluster, hlast⟩
        exact hcluster.eq ▸ hlast
    · next hdash =>
      refine iff_of_false nofun ?_
      rintro ⟨letters, hcluster, -⟩
      exact hdash letters hcluster.1

/-! ## Long names and clusters -/

/-- The name of an option begins with two hyphens. -/
def IsLong (long : String) : Prop :=
  ['-', '-'] <+: long.toList

/-- A cluster gives the options of its letters. -/
theorem givesOption_cluster_iff {letters : List Char} (hlong : IsLong long)
    (h : letters.head? ≠ some '-') :
    GivesOption letter long ('-' :: letters) ↔ letter ∈ letters := by
  constructor
  · rintro (heq | ⟨letters', hcluster, hmem⟩)
    · obtain ⟨name, hname⟩ := hlong
      rw [← hname] at heq
      cases heq
      exact absurd rfl h
    · exact hcluster.eq ▸ hmem
  · exact fun hmem => .inr ⟨letters, cluster_cons h, hmem⟩

/-- Only words that begin with a hyphen give options. -/
theorem GivesOption.head?_eq (hlong : IsLong long) (h : GivesOption letter long word) :
    word.head? = some '-' := by
  rcases h with rfl | ⟨letters, ⟨rfl, -⟩, -⟩
  · obtain ⟨name, hname⟩ := hlong
    rw [← hname]
    rfl
  · rfl

/-- So it is with words that send a document to the standard output. -/
theorem Outputs.head?_eq (h : Outputs word next) : word.head? = some '-' := by
  rcases h with rfl | ⟨rfl, -⟩ | ⟨letters, ⟨rfl, -⟩, -⟩ <;> rfl

instance (long : String) : Decidable (IsLong long) :=
  inferInstanceAs (Decidable (['-', '-'] <+: long.toList))

instance (letter : Char) (long : String) (word : List Char) :
    Decidable (GivesOption letter long word) :=
  decidable_of_iff (word = long.toList ∨ isCluster letter word = true)
    (or_congr_right isCluster_iff)

instance (letter : Char) (long : String) (words : List (List Char)) :
    Decidable (Gives letter long words) :=
  inferInstanceAs (Decidable (∃ word ∈ words, GivesOption letter long word))

/-! ## Several words -/

theorem gives_append_iff :
    Gives letter long (ws ++ vs) ↔ Gives letter long ws ∨ Gives letter long vs := by
  simp only [Gives, List.mem_append, or_and_right, exists_or]

theorem gives_singleton_iff : Gives letter long [word] ↔ GivesOption letter long word := by
  simp [Gives]

theorem sendsToStdout_cons_iff : SendsToStdout (word :: words) ↔
    Outputs word words.head? ∨ SendsToStdout words := by
  constructor
  · rintro ⟨front, word', behind, heq, houtputs⟩
    cases front with
    | nil =>
      cases heq
      exact .inl houtputs
    | cons w front =>
      cases heq
      exact .inr ⟨front, word', behind, rfl, houtputs⟩
  · rintro (houtputs | ⟨front, word', behind, rfl, houtputs⟩)
    · exact ⟨[], word, words, rfl, houtputs⟩
    · exact ⟨word :: front, word', behind, rfl, houtputs⟩

theorem anyOutputWord_iff : anyOutputWord words = true ↔ SendsToStdout words := by
  induction words with
  | nil =>
    refine iff_of_false nofun ?_
    rintro ⟨front, word, behind, heq, -⟩
    cases front <;> cases heq
  | cons word words ih =>
    rw [anyOutputWord, Bool.or_eq_true, isOutputWord_iff, ih, sendsToStdout_cons_iff]

/-- **Wget's output is read off a word and the one behind it.** -/
theorem writesToStdout_iff : writesToStdout command = true ↔
    SendsToStdout (Text.words command.toList) :=
  anyOutputWord_iff

/-- Of the word behind it only matters whether it is a hyphen. -/
theorem Outputs.congr {next' : Option (List Char)} (h : next = some ['-'] → next' = some ['-'])
    (houtputs : Outputs word next) : Outputs word next' := by
  rcases houtputs with hword | ⟨hword, hnext⟩ | ⟨letters, hcluster, hlast⟩
  · exact .inl hword
  · exact .inr (.inl ⟨hword, h hnext⟩)
  · exact .inr (.inr ⟨letters, hcluster, hlast.imp_right (And.imp_right h)⟩)

/-- **Words in front of others do not send more to the standard output**
than each of them, unless a hyphen is the first of the others. -/
theorem sendsToStdout_append_iff (hvs : vs.head? ≠ some ['-']) :
    SendsToStdout (ws ++ vs) ↔ SendsToStdout ws ∨ SendsToStdout vs := by
  induction ws with
  | nil =>
    rw [List.nil_append, or_iff_right]
    rintro ⟨front, word, behind, heq, -⟩
    cases front <;> cases heq
  | cons w ws ih =>
    rw [List.cons_append, sendsToStdout_cons_iff, sendsToStdout_cons_iff, ih, or_assoc]
    refine or_congr_left ?_
    cases ws with
    | nil => exact ⟨.congr fun hhead => absurd hhead hvs, .congr nofun⟩
    | cons w' ws => rfl

end ShellPreview.Command
