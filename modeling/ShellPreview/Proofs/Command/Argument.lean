import Mathlib.Order.WellFounded
import ShellPreview.Proofs.Command.Inline
import ShellPreview.Proofs.Pattern.Quoted
/-!
# The ways to read code in a command

A command can be read as one with code in it at every option `-c` that has
a quoted argument behind at least one blank, and at each of them in one way
only (`CodeReading.ext_of_length`). The code of the command is that of the
reading with the shortest text in front. Options whose argument does not
begin with a quote, is empty or is not closed are passed over: they are
those at which there is no reading (`givesNoCode_iff`).
-/

namespace ShellPreview.Command

variable {cs rest rest' front blanks blanks' code : List Char} {c c' : Char}
variable {command : String}

/-- A way to read a text as a command with code in it. -/
@[ext]
structure CodeReading (cs : List Char) where
  front : List Char
  blanks : List Char
  opening : Char
  code : List Char
  closing : Char
  behind : List Char
  text_eq : cs = front ++ '-' :: 'c' :: (blanks ++ opening :: (code ++ closing :: behind))
  blanks_ne_nil : blanks ≠ []
  isBlank_of_mem : ∀ c ∈ blanks, Text.isBlank c = true
  isQuote_opening : isQuote opening = true
  isQuote_closing : isQuote closing = true
  code_ne_nil : code ≠ []
  not_isQuote_of_mem : ∀ c ∈ code, isQuote c = false

/-- What stands behind an option `-c` that gives no code. -/
inductive GivesNoCode : List Char → Prop
  /-- There is no blank behind the option. -/
  | attached {rest : List Char} (h : ∀ c ∈ rest.head?, Text.isBlank c = false) : GivesNoCode rest
  /-- There is no quote behind the blanks. -/
  | unquoted {blanks rest : List Char} (hblanks : ∀ c ∈ blanks, Text.isBlank c = true)
      (h : ∀ c ∈ rest.head?, Text.isBlank c = false ∧ isQuote c = false) :
      GivesNoCode (blanks ++ rest)
  /-- There is nothing between the quotes. -/
  | empty {blanks rest : List Char} {opening closing : Char}
      (hblanks : ∀ c ∈ blanks, Text.isBlank c = true) (hopening : isQuote opening = true)
      (hclosing : isQuote closing = true) : GivesNoCode (blanks ++ opening :: closing :: rest)
  /-- There is no second quote. -/
  | unclosed {blanks rest : List Char} {opening : Char}
      (hblanks : ∀ c ∈ blanks, Text.isBlank c = true) (hopening : isQuote opening = true)
      (hrest : ∀ c ∈ rest, isQuote c = false) : GivesNoCode (blanks ++ opening :: rest)

/-! ## One way at every option -/

theorem takeWhile_isBlank_append (hblanks : ∀ c ∈ blanks, Text.isBlank c = true)
    (hc : Text.isBlank c = false) (rest : List Char) :
    (blanks ++ c :: rest).takeWhile Text.isBlank = blanks := by
  rw [List.takeWhile_append_of_pos hblanks, List.takeWhile_cons_of_neg (by simp [hc]),
    List.append_nil]

/-- Blanks can be told from what follows them. -/
theorem blanks_append_inj (hblanks : ∀ c ∈ blanks, Text.isBlank c = true)
    (hblanks' : ∀ c ∈ blanks', Text.isBlank c = true) (hc : Text.isBlank c = false)
    (hc' : Text.isBlank c' = false) (h : blanks ++ c :: rest = blanks' ++ c' :: rest') :
    blanks = blanks' ∧ c = c' ∧ rest = rest' := by
  have htake := congrArg (List.takeWhile Text.isBlank) h
  rw [takeWhile_isBlank_append hblanks hc, takeWhile_isBlank_append hblanks' hc'] at htake
  rw [htake, List.append_cancel_left_eq] at h
  obtain ⟨hsame, hrest⟩ := List.cons.inj h
  exact ⟨htake, hsame, hrest⟩

namespace CodeReading

/-- **There is only one reading at an option.** -/
theorem ext_of_length {r r' : CodeReading cs} (h : r.front.length = r'.front.length) : r = r' := by
  obtain ⟨hfront, hrest⟩ := List.append_inj (r.text_eq.symm.trans r'.text_eq) h
  have hargument := (List.cons.inj (List.cons.inj hrest).2).2
  obtain ⟨hblanks, hopening, hquoted⟩ := blanks_append_inj r.isBlank_of_mem r'.isBlank_of_mem
    (isBlank_of_isQuote r.isQuote_opening) (isBlank_of_isQuote r'.isQuote_opening) hargument
  have hcode : r.code = r'.code := by
    have htake := congrArg (List.takeWhile fun c => !isQuote c) hquoted
    rwa [Text.takeWhile_segment r.not_isQuote_of_mem (Text.atStop_cons r.isQuote_closing _),
      Text.takeWhile_segment r'.not_isQuote_of_mem (Text.atStop_cons r'.isQuote_closing _)] at htake
  rw [hcode, List.append_cancel_left_eq] at hquoted
  obtain ⟨hclosing, hbehind⟩ := List.cons.inj hquoted
  exact CodeReading.ext hfront hblanks hopening hcode hclosing hbehind

/-- At the option of a reading code opens. -/
theorem opensCode (r : CodeReading cs) : ∃ rest, cs = r.front ++ rest ∧ OpensCode r.code rest := by
  rcases hblanks : r.blanks with - | ⟨blank, blanks⟩
  · exact absurd hblanks r.blanks_ne_nil
  · have hmem := r.isBlank_of_mem
    rw [hblanks] at hmem
    obtain ⟨hblank, hmem⟩ := List.forall_mem_cons.mp hmem
    refine ⟨_, r.text_eq, blank, _, by rw [hblanks]; rfl, hblank, ?_⟩
    exact ⟨blanks, r.opening, r.closing, r.behind, rfl, hmem, r.isQuote_opening, r.isQuote_closing,
      r.code_ne_nil, r.not_isQuote_of_mem⟩

/-- Where code opens there is a reading. -/
theorem exists_of_opensCode (htext : cs = front ++ rest) (h : OpensCode code rest) :
    ∃ r : CodeReading cs, r.front = front ∧ r.code = code := by
  obtain ⟨blank, _, rfl, hblank, blanks, opening, closing, behind, rfl, hmem, hopening, hclosing,
    hne, hcode⟩ := h
  exact ⟨{
    front := front
    blanks := blank :: blanks
    opening := opening
    code := code
    closing := closing
    behind := behind
    text_eq := htext
    blanks_ne_nil := List.cons_ne_nil _ _
    isBlank_of_mem := List.forall_mem_cons.mpr ⟨hblank, hmem⟩
    isQuote_opening := hopening
    isQuote_closing := hclosing
    code_ne_nil := hne
    not_isQuote_of_mem := hcode }, rfl, rfl⟩

/-- **The first code is that of the reading with the least in front.** -/
theorem firstCode_iff : FirstCode code cs ↔
    ∃ r : CodeReading cs, r.code = code ∧ ∀ r' : CodeReading cs,
      r.front.length ≤ r'.front.length := by
  constructor
  · rintro ⟨front, rest, htext, hopens, hfirst⟩
    obtain ⟨r, hfront, hcode⟩ := exists_of_opensCode htext hopens
    refine ⟨r, hcode, fun r' => ?_⟩
    obtain ⟨rest', htext', hopens'⟩ := r'.opensCode
    rw [hfront]
    exact hfirst _ _ _ htext' hopens'
  · rintro ⟨r, rfl, hfirst⟩
    obtain ⟨rest, htext, hopens⟩ := r.opensCode
    refine ⟨r.front, rest, htext, hopens, fun front' rest' code' htext' hopens' => ?_⟩
    obtain ⟨r', hfront, -⟩ := exists_of_opensCode htext' hopens'
    exact (hfirst r').trans_eq (congrArg List.length hfront)

/-- Of the readings of a text one has the least in front. -/
theorem exists_first (h : Nonempty (CodeReading cs)) :
    ∃ r : CodeReading cs, ∀ r' : CodeReading cs, r.front.length ≤ r'.front.length := by
  let length : CodeReading cs → ℕ := fun r => r.front.length
  exact ⟨Function.argmin length, fun r' => Function.argmin_le length r'⟩

end CodeReading

/-! ## Options that give no code -/

/-- Where no code opens, the argument is missing, empty or not closed. -/
theorem givesNoCode_of_not_opensCode (h : ∀ code, ¬OpensCode code ('-' :: 'c' :: rest)) :
    GivesNoCode rest := by
  have hsplit : rest.takeWhile Text.isBlank ++ rest.dropWhile Text.isBlank = rest :=
    List.takeWhile_append_dropWhile
  have hblanks : ∀ c ∈ rest.takeWhile Text.isBlank, Text.isBlank c = true :=
    fun c hc => List.mem_takeWhile_imp hc
  have hstop : ∀ c ∈ (rest.dropWhile Text.isBlank).head?, Text.isBlank c = false := by
    intro c hc
    have hnot := List.head?_dropWhile_not Text.isBlank rest
    rw [Option.mem_def.mp hc] at hnot
    simpa using hnot
  rcases hfront : rest.takeWhile Text.isBlank with - | ⟨blank, blanks⟩
  · rw [hfront, List.nil_append] at hsplit
    rw [hsplit] at hstop
    exact .attached hstop
  rcases hargument : rest.dropWhile Text.isBlank with - | ⟨opening, argument⟩
  · rw [← hsplit, hargument]
    exact .unquoted hblanks nofun
  rw [hargument] at hsplit hstop
  cases hopening : isQuote opening with
  | false =>
    rw [← hsplit]
    exact .unquoted hblanks fun c hc => Option.some.inj hc ▸ ⟨hstop opening rfl, hopening⟩
  | true =>
    have hends := Text.atStop_dropWhile isQuote argument
    have hcode : ∀ c ∈ argument.takeWhile (fun c => !isQuote c), isQuote c = false :=
      fun c hc => by simpa using List.mem_takeWhile_imp hc
    have hquotes := List.takeWhile_append_dropWhile (p := fun c => !isQuote c) (l := argument)
    rcases hclosing : argument.dropWhile (fun c => !isQuote c) with - | ⟨closing, behind⟩
    · rw [hclosing, List.append_nil] at hquotes
      rw [hquotes] at hcode
      rw [← hsplit]
      exact .unclosed hblanks hopening hcode
    rw [hclosing] at hquotes hends
    rcases hempty : argument.takeWhile (fun c => !isQuote c) with - | ⟨first, code⟩
    · rw [hempty, List.nil_append] at hquotes
      rw [← hsplit, ← hquotes]
      exact .empty hblanks hopening (hends closing rfl)
    · -- between the quotes there is code
      have hfull : OpensCode (first :: code) ('-' :: 'c' :: rest) := by
        rw [hfront] at hsplit hblanks
        obtain ⟨hblank, hblanks⟩ := List.forall_mem_cons.mp hblanks
        rw [hempty] at hquotes hcode
        refine ⟨blank, _, by rw [← hsplit, List.cons_append], hblank, blanks, opening, closing,
          behind, by rw [hquotes], hblanks, hopening, hends closing rfl, List.cons_ne_nil _ _,
          hcode⟩
      exact absurd hfull (h _)

/-- Where the argument is missing, empty or not closed no code opens. -/
theorem GivesNoCode.not_opensCode (h : GivesNoCode rest) (code : List Char) :
    ¬OpensCode code ('-' :: 'c' :: rest) := by
  rintro ⟨blank, _, heq, hblank, blanks', opening', closing', behind', rfl, hblanks', hopening',
    hclosing', hne, hcode⟩
  have hrest : rest = (blank :: blanks') ++ opening' :: (code ++ closing' :: behind') :=
    (List.cons.inj (List.cons.inj heq).2).2
  have hall : ∀ c ∈ blank :: blanks', Text.isBlank c = true :=
    List.forall_mem_cons.mpr ⟨hblank, hblanks'⟩
  have hsolid : Text.isBlank opening' = false := isBlank_of_isQuote hopening'
  cases h with
  | attached h =>
    rw [hrest] at h
    exact Bool.false_ne_true ((h blank rfl).symm.trans hblank)
  | @unquoted blanks argument hblanks h =>
    cases argument with
    | nil =>
      -- there are blanks only, and no quote among them
      rw [List.append_nil] at hrest
      have hmem : opening' ∈ blanks := by simp [hrest]
      exact Bool.false_ne_true (hsolid.symm.trans (hblanks _ hmem))
    | cons c argument =>
      obtain ⟨hc, hquote⟩ := h c rfl
      obtain ⟨-, rfl, -⟩ := blanks_append_inj hblanks hall hc hsolid hrest
      exact Bool.false_ne_true (hquote.symm.trans hopening')
  | empty hblanks hopening hclosing =>
    obtain ⟨-, -, hquoted⟩ :=
      blanks_append_inj hblanks hall (isBlank_of_isQuote hopening) hsolid hrest
    rcases code with - | ⟨c, code⟩
    · exact hne rfl
    · obtain ⟨rfl, -⟩ := List.cons.inj hquoted
      exact Bool.false_ne_true ((hcode _ List.mem_cons_self).symm.trans hclosing)
  | unclosed hblanks hopening hunclosed =>
    obtain ⟨-, -, rfl⟩ :=
      blanks_append_inj hblanks hall (isBlank_of_isQuote hopening) hsolid hrest
    have hmem : closing' ∈ code ++ closing' :: behind' := by simp
    exact Bool.false_ne_true ((hunclosed _ hmem).symm.trans hclosing')

/-- **An option gives no code** exactly if there is no reading at it. -/
theorem givesNoCode_iff (htext : cs = front ++ '-' :: 'c' :: rest) :
    GivesNoCode rest ↔ ∀ r : CodeReading cs, r.front ≠ front := by
  constructor
  · intro hno r hfront
    obtain ⟨rest', htext', hopens⟩ := r.opensCode
    have hsame : front ++ '-' :: 'c' :: rest = front ++ rest' := by
      rw [← htext, ← hfront, ← htext']
    rw [← List.append_cancel_left hsame] at hopens
    exact hno.not_opensCode r.code hopens
  · intro hno
    refine givesNoCode_of_not_opensCode fun code hopens => ?_
    obtain ⟨r, hfront, -⟩ := CodeReading.exists_of_opensCode htext hopens
    exact hno r hfront

/-! ## The code of a command -/

/-- No code is found exactly if there is no reading. -/
theorem inlineCode_eq_none_iff_isEmpty :
    inlineCode command = none ↔ IsEmpty (CodeReading command.toList) := by
  rw [inlineCode_eq_none_iff]
  constructor
  · intro hno
    refine not_nonempty_iff.mp fun hsome => ?_
    obtain ⟨r, hfirst⟩ := CodeReading.exists_first hsome
    refine hno (String.ofList r.code) (CodeReading.firstCode_iff.mpr ⟨r, ?_, hfirst⟩)
    rw [String.toList_ofList]
  · intro hempty code hfirst
    obtain ⟨r, -⟩ := (CodeReading.firstCode_iff).mp hfirst
    exact hempty.elim r

/-- **The code of a command is that of its first option `-c` with a quoted
argument.** It is what the pattern finds. There is code exactly if the
command can be read as one with code in it, and it is that of the reading
with the least in front, of which there is only one; and an option is passed
over exactly if its argument is missing, empty, not quoted or not closed. -/
theorem inlineCode_of_first_reading (command : String) :
    (∃ pattern, Pattern.parse Pattern.quotedCodeText = .ok pattern ∧
      pattern.firstText command = inlineCode command) ∧
    (∀ code, inlineCode command = some code ↔
      ∃ r : CodeReading command.toList, r.code = code.toList ∧
        ∀ r' : CodeReading command.toList, r.front.length ≤ r'.front.length) ∧
    (inlineCode command = none ↔ IsEmpty (CodeReading command.toList)) ∧
    (∀ r r' : CodeReading command.toList, r.front.length = r'.front.length → r = r') ∧
    ∀ front rest, command.toList = front ++ '-' :: 'c' :: rest →
      (GivesNoCode rest ↔ ∀ r : CodeReading command.toList, r.front ≠ front) := by
  refine ⟨⟨_, Pattern.parse_quotedCodeText, Pattern.firstText_quotedCode command⟩, fun code => ?_,
    inlineCode_eq_none_iff_isEmpty, fun r r' => CodeReading.ext_of_length,
    fun front rest => givesNoCode_iff⟩
  rw [inlineCode_eq_some_iff, CodeReading.firstCode_iff]

/-- An option with nothing between its quotes is passed over, and the quotes
of the next one are of two kinds. -/
theorem inlineCode_of_first_reading_sample :
    inlineCode "-c \x27\x27 -c\u3000\x27p\" q\x27" = some "p" ∧
      ∀ r : CodeReading "-c \x27\x27 -c\u3000\x27p\" q\x27".toList, r.front ≠ [] := by
  have hempty : GivesNoCode ([' '] ++ '\x27' :: '\x27' :: " -c\u3000\x27p\" q\x27".toList) :=
    .empty (List.forall_mem_singleton.mpr rfl) rfl rfl
  obtain ⟨-, -, -, -, hpassed⟩ :=
    inlineCode_of_first_reading "-c \x27\x27 -c\u3000\x27p\" q\x27"
  exact ⟨by decide, (hpassed [] _ (by decide)).mp hempty⟩

end ShellPreview.Command
