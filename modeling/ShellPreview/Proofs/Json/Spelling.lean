import ShellPreview.Proofs.Json.Numeral
import ShellPreview.Proofs.Json.Text
/-!
# How values are spelled

`Spells v cs` is the grammar of JSON texts: `cs` is a way to write the
value `v`, with any blanks between tokens, any way to write the texts and
any number that is read as the one of the value. It says nothing about
readers; the readers are shown to agree with it elsewhere.

What the printer writes is spelled so, on one line and on lines of its own
(`spells_compactChars`, `spells_prettyChars`), if every number of the
value is read back from its own digits.
-/

namespace ShellPreview.Json

/-- A value is built from values whose lists and objects are smaller. -/
@[elab_as_elim]
theorem ind {motive : Json → Prop} (null : motive .null) (flag : ∀ b, motive (.flag b))
    (number : ∀ n, motive (.number n)) (text : ∀ s, motive (.text s))
    (list : ∀ vs, (∀ v ∈ vs, motive v) → motive (.list vs))
    (object : ∀ ms, (∀ m ∈ ms, motive m.2) → motive (.object ms)) (v : Json) : motive v :=
  @Json.rec motive (fun vs => ∀ v ∈ vs, motive v) (fun ms => ∀ m ∈ ms, motive m.2)
    (fun m => motive m.2) null flag number text list object nofun
    (fun _ _ hv hvs => List.forall_mem_cons.mpr ⟨hv, hvs⟩) nofun
    (fun _ _ hm hms => List.forall_mem_cons.mpr ⟨hm, hms⟩) (fun _ _ hv => hv) v

/-- Lists and objects nest no deeper than `room`. -/
inductive Nests : Nat → Json → Prop
  | null {room : Nat} : Nests room .null
  | flag {room : Nat} (b : Bool) : Nests room (.flag b)
  | number {room : Nat} (n : Numeral) : Nests room (.number n)
  | text {room : Nat} (s : String) : Nests room (.text s)
  | list {room : Nat} {vs : List Json} (h : ∀ v ∈ vs, Nests room v) : Nests (room + 1) (.list vs)
  | object {room : Nat} {ms : List (String × Json)} (h : ∀ m ∈ ms, Nests room m.2) :
      Nests (room + 1) (.object ms)

/-- Every number in a value is as `P` says. -/
inductive Numbers (P : Numeral → Prop) : Json → Prop
  | null : Numbers P .null
  | flag (b : Bool) : Numbers P (.flag b)
  | number {n : Numeral} (h : P n) : Numbers P (.number n)
  | text (s : String) : Numbers P (.text s)
  | list {vs : List Json} (h : ∀ v ∈ vs, Numbers P v) : Numbers P (.list vs)
  | object {ms : List (String × Json)} (h : ∀ m ∈ ms, Numbers P m.2) : Numbers P (.object ms)

/-! What nests and which numbers there are, part by part. -/

section Parts

variable {room : Nat} {P : Numeral → Prop} {vs : List Json} {ms : List (String × Json)}

@[simp] theorem nests_text (s : String) : Nests room (.text s) := .text s

@[simp] theorem nests_flag (b : Bool) : Nests room (.flag b) := .flag b

@[simp] theorem nests_nat (n : Nat) : Nests room (.nat n) := .number _

@[simp] theorem nests_list : Nests (room + 1) (.list vs) ↔ ∀ v ∈ vs, Nests room v := by
  refine ⟨fun h => ?_, .list⟩
  cases h with
  | list h => exact h

@[simp] theorem nests_object : Nests (room + 1) (.object ms) ↔ ∀ m ∈ ms, Nests room m.2 := by
  refine ⟨fun h => ?_, .object⟩
  cases h with
  | object h => exact h

theorem Nests.mono {room' : Nat} {v : Json} (h : Nests room v) (hle : room ≤ room') :
    Nests room' v := by
  induction h generalizing room' with
  | null => exact .null
  | flag b => exact .flag b
  | number n => exact .number n
  | text s => exact .text s
  | list _ ih =>
    obtain ⟨room', rfl⟩ := Nat.exists_eq_succ_of_ne_zero (Nat.ne_zero_of_lt hle)
    exact .list fun v hv => ih v hv (Nat.le_of_succ_le_succ hle)
  | object _ ih =>
    obtain ⟨room', rfl⟩ := Nat.exists_eq_succ_of_ne_zero (Nat.ne_zero_of_lt hle)
    exact .object fun m hm => ih m hm (Nat.le_of_succ_le_succ hle)

@[simp] theorem numbers_text (s : String) : Numbers P (.text s) := .text s

@[simp] theorem numbers_flag (b : Bool) : Numbers P (.flag b) := .flag b

@[simp] theorem numbers_nat {n : Nat} : Numbers P (.nat n) ↔ P (.whole n) := by
  refine ⟨fun h => ?_, .number⟩
  cases h with
  | number h => exact h

@[simp] theorem numbers_list : Numbers P (.list vs) ↔ ∀ v ∈ vs, Numbers P v := by
  refine ⟨fun h => ?_, .list⟩
  cases h with
  | list h => exact h

@[simp] theorem numbers_object : Numbers P (.object ms) ↔ ∀ m ∈ ms, Numbers P m.2 := by
  refine ⟨fun h => ?_, .object⟩
  cases h with
  | object h => exact h

/-- What two facts about a number give, they give about all numbers. -/
theorem Numbers.combine {Q R : Numeral → Prop} (hR : ∀ n, P n → Q n → R n) {v : Json}
    (hP : Numbers P v) (hQ : Numbers Q v) : Numbers R v := by
  induction hP with
  | null => exact .null
  | flag b => exact .flag b
  | number hn =>
    cases hQ with
    | number hn' => exact .number (hR _ hn hn')
  | text s => exact .text s
  | list _ ih => exact .list fun v hv => ih v hv (numbers_list.mp hQ v hv)
  | object _ ih => exact .object fun m hm => ih m hm (numbers_object.mp hQ m hm)

end Parts

/-- What stands in front of an item or a key: blanks, with a comma among
them unless it is the first one. -/
inductive Separates : Bool → List Char → Prop
  | first {bs : List Char} (h : Blanks bs) : Separates true bs
  | later {bs bs' : List Char} (h : Blanks bs) (h' : Blanks bs') :
      Separates false (bs ++ ',' :: bs')

mutual

/-- A way to write a value. -/
inductive Spells : Json → List Char → Prop
  | null : Spells .null ['n', 'u', 'l', 'l']
  | flag (b : Bool) : Spells (.flag b) (flagChars b)
  | number {n : Numeral} {cs : List Char} (h : readNumeral cs = .ok (n, [])) : Spells (.number n) cs
  | text {s cs : List Char} (h : Escapes s cs) :
      Spells (.text (String.ofList s)) ('\x22' :: (cs ++ ['\x22']))
  | list {vs : List Json} {cs : List Char} (h : SpellsItems true vs cs) :
      Spells (.list vs) ('[' :: cs)
  | object {ms : List (String × Json)} {cs : List Char} (h : SpellsMembers true ms cs) :
      Spells (.object ms) ('\x7b' :: cs)

/-- A way to write items, with what separates them and the closing
bracket. -/
inductive SpellsItems : Bool → List Json → List Char → Prop
  | close {first : Bool} {bs : List Char} (h : Blanks bs) : SpellsItems first [] (bs ++ [']'])
  | item {first : Bool} {sep cs ds : List Char} {v : Json} {vs : List Json}
      (hsep : Separates first sep) (hv : Spells v cs) (hvs : SpellsItems false vs ds) :
      SpellsItems first (v :: vs) (sep ++ (cs ++ ds))

/-- A way to write members, with what separates them and the closing
brace. -/
inductive SpellsMembers : Bool → List (String × Json) → List Char → Prop
  | close {first : Bool} {bs : List Char} (h : Blanks bs) :
      SpellsMembers first [] (bs ++ ['\x7d'])
  | member {first : Bool} {sep key ks bs bs' cs ds : List Char} {v : Json}
      {ms : List (String × Json)} (hsep : Separates first sep) (hkey : Escapes key ks)
      (hbs : Blanks bs) (hbs' : Blanks bs') (hv : Spells v cs) (hms : SpellsMembers false ms ds) :
      SpellsMembers first ((String.ofList key, v) :: ms)
        (sep ++ '\x22' :: (ks ++ '\x22' :: (bs ++ ':' :: (bs' ++ (cs ++ ds)))))

end

/-! ## The first character -/

theorem eq_of_isBlank {c : Char} (h : isBlank c = true) :
    c = ' ' ∨ c = '\n' ∨ c = '\t' ∨ c = '\r' := by
  simpa [isBlank, or_assoc] using h

theorem blanks_nil : Blanks [] :=
  nofun

theorem blanks_newLine (depth : Nat) : Blanks (newLine depth) := by
  intro c hc
  rcases List.mem_cons.mp hc with rfl | hc
  · rfl
  · rw [List.eq_of_mem_replicate hc]
    rfl

theorem ends_cons {c : Char} (rest : List Char)
    (h : c.isDigit = false ∧ c ≠ '.' ∧ c ≠ 'e' ∧ c ≠ 'E') : Ends (c :: rest) := by
  rintro _ ⟨⟩
  exact h

/-- No number goes on with blanks, nor with a character behind them with
which none goes on. -/
theorem ends_blanks_append {bs rest : List Char} (hbs : Blanks bs) (h : Ends rest) :
    Ends (bs ++ rest) := by
  cases bs with
  | nil => exact h
  | cons b bs =>
    intro c hc
    obtain rfl := Option.mem_some.mp hc
    rcases eq_of_isBlank (hbs b List.mem_cons_self) with rfl | rfl | rfl | rfl <;> decide

theorem Separates.ends {sep rest : List Char} (h : Separates false sep) : Ends (sep ++ rest) := by
  obtain - | ⟨hbs, hbs'⟩ := h
  rw [List.append_assoc]
  exact ends_blanks_append hbs (ends_cons _ (by decide))

theorem SpellsItems.ends {vs : List Json} {cs : List Char} (h : SpellsItems false vs cs)
    (rest : List Char) : Ends (cs ++ rest) := by
  cases h with
  | close hbs =>
    rw [List.append_assoc]
    exact ends_blanks_append hbs (ends_cons _ (by decide))
  | item hsep =>
    rw [List.append_assoc]
    exact hsep.ends

theorem SpellsMembers.ends {ms : List (String × Json)} {cs : List Char}
    (h : SpellsMembers false ms cs) (rest : List Char) : Ends (cs ++ rest) := by
  cases h with
  | close hbs =>
    rw [List.append_assoc]
    exact ends_blanks_append hbs (ends_cons _ (by decide))
  | member hsep =>
    rw [List.append_assoc]
    exact hsep.ends

/-- A character with which a number may begin: it is no blank, no other
value begins with it, and it is no sign between values. -/
structure StartsNumeral (c : Char) : Prop where
  test : (decide (c = '-') || c.isDigit) = true
  blank : isBlank c = false
  other : c ≠ 'n' ∧ c ≠ 't' ∧ c ≠ 'f' ∧ c ≠ '\x22'
  sign : c ≠ ',' ∧ c ≠ ']' ∧ c ≠ '\x7d'

theorem startsNumeral {c : Char} (h : c = '-' ∨ c.isDigit = true) : StartsNumeral c := by
  have hne : ∀ d : Char, d ≠ '-' → d.isDigit = false → c ≠ d := by
    rintro d hminus hdigit rfl
    rcases h with h | h
    · exact hminus h
    · exact absurd h (by rw [hdigit]; decide)
  refine ⟨by simpa using h, Bool.eq_false_iff.mpr fun hblank => ?_, ?_, ?_⟩
  · rcases eq_of_isBlank hblank with rfl | rfl | rfl | rfl <;> simp at h
  · refine ⟨?_, ?_, ?_, ?_⟩ <;> exact hne _ (by decide) (by decide)
  · refine ⟨?_, ?_, ?_⟩ <;> exact hne _ (by decide) (by decide)

/-- A number begins with its sign or a digit. -/
theorem head_of_readNumeral {cs r : List Char} {n : Numeral} (h : readNumeral cs = .ok (n, r)) :
    ∃ c ds, cs = c :: ds ∧ StartsNumeral c := by
  cases cs with
  | nil => cases h
  | cons c cs =>
    refine ⟨c, cs, rfl, startsNumeral ?_⟩
    by_cases hminus : c = '-'
    · exact .inl hminus
    · right
      rw [readNumeral.eq_2 _ (by grind)] at h
      by_contra hdigit
      have hzero : c ≠ '0' := by
        rintro rfl
        exact hdigit rfl
      simp [readMagnitude, hzero, hdigit] at h

/-- A value begins with a character that is no blank and no sign between
values. -/
theorem Spells.head {v : Json} {cs : List Char} (h : Spells v cs) :
    ∃ c ds, cs = c :: ds ∧ isBlank c = false ∧ c ≠ ',' ∧ c ≠ ']' ∧ c ≠ '\x7d' := by
  cases h with
  | null => exact ⟨'n', _, rfl, by decide⟩
  | flag b => cases b <;> exact ⟨_, _, rfl, by decide⟩
  | number h =>
    obtain ⟨c, ds, rfl, hc⟩ := head_of_readNumeral h
    exact ⟨c, ds, rfl, hc.blank, hc.sign⟩
  | text => exact ⟨'\x22', _, rfl, by decide⟩
  | list => exact ⟨'[', _, rfl, by decide⟩
  | object => exact ⟨'\x7b', _, rfl, by decide⟩

/-- Nothing but null begins as null does. -/
theorem Spells.head_ne_n {v : Json} {cs : List Char} (h : Spells v cs) (hv : v ≠ .null) :
    ∀ r, cs ≠ 'n' :: r := by
  cases h with
  | null => exact absurd rfl hv
  | flag b => cases b <;> simp [flagChars]
  | number h =>
    obtain ⟨c, ds, rfl, hc⟩ := head_of_readNumeral h
    rintro r hr
    exact hc.other.1 (List.cons.inj hr).1
  | text | list | object => simp

/-! ## What the printer writes -/

theorem spells_literal (s : String) : Spells (.text s) (literal s) := by
  have hs := Spells.text (Escapes.escapes_escape s.toList)
  rwa [String.ofList_toList] at hs

theorem separates_newLine (depth : Nat) : Separates false (',' :: newLine depth) :=
  .later blanks_nil (blanks_newLine depth)

theorem spellsItems_compactItems {vs : List Json} (h : ∀ v ∈ vs, Spells v (compactChars v)) :
    SpellsItems false vs (compactItems vs) := by
  induction vs with
  | nil => exact .close blanks_nil
  | cons v vs ih =>
    obtain ⟨hv, hvs⟩ := List.forall_mem_cons.mp h
    exact .item (.later blanks_nil blanks_nil) hv (ih hvs)

/-- A member as the printer writes it, with blanks behind the colon. -/
theorem spellsMembers_literal {first : Bool} {sep bs cs ds : List Char} {key : String} {v : Json}
    {ms : List (String × Json)} (hsep : Separates first sep) (hbs : Blanks bs) (hv : Spells v cs)
    (hms : SpellsMembers false ms ds) :
    SpellsMembers first ((key, v) :: ms) (sep ++ (literal key ++ ':' :: (bs ++ (cs ++ ds)))) := by
  have hkey := Escapes.escapes_escape key.toList
  have hmember := SpellsMembers.member hsep hkey blanks_nil hbs hv hms
  simpa [literal] using hmember

theorem spellsMembers_compactMembers {ms : List (String × Json)}
    (h : ∀ m ∈ ms, Spells m.2 (compactChars m.2)) :
    SpellsMembers false ms (compactMembers ms) := by
  induction ms with
  | nil => exact .close blanks_nil
  | cons m ms ih =>
    obtain ⟨hm, hms⟩ := List.forall_mem_cons.mp h
    exact spellsMembers_literal (.later blanks_nil blanks_nil) blanks_nil hm (ih hms)

/-- **The printer spells the value on one line.** -/
theorem spells_compactChars {v : Json} (h : Numbers Numeral.ReadsBack v) :
    Spells v (compactChars v) := by
  induction h with
  | null => exact .null
  | flag b => exact .flag b
  | number h => exact .number h
  | text s => exact spells_literal s
  | @list vs _ ih =>
    cases vs with
    | nil => exact .list (.close blanks_nil)
    | cons v vs =>
      obtain ⟨hv, hvs⟩ := List.forall_mem_cons.mp ih
      exact .list (.item (.first blanks_nil) hv (spellsItems_compactItems hvs))
  | @object ms _ ih =>
    cases ms with
    | nil => exact .object (.close blanks_nil)
    | cons m ms =>
      obtain ⟨hm, hms⟩ := List.forall_mem_cons.mp ih
      exact .object (spellsMembers_literal (.first blanks_nil) blanks_nil hm
        (spellsMembers_compactMembers hms))

theorem spellsItems_prettyItems {depth : Nat} {vs : List Json}
    (h : ∀ v ∈ vs, Spells v (prettyChars (depth + 1) v)) :
    SpellsItems false vs (prettyItems depth vs) := by
  induction vs with
  | nil => exact .close (blanks_newLine depth)
  | cons v vs ih =>
    obtain ⟨hv, hvs⟩ := List.forall_mem_cons.mp h
    exact .item (separates_newLine _) hv (ih hvs)

theorem spellsMembers_prettyMembers {depth : Nat} {ms : List (String × Json)}
    (h : ∀ m ∈ ms, Spells m.2 (prettyChars (depth + 1) m.2)) :
    SpellsMembers false ms (prettyMembers depth ms) := by
  have hblank : Blanks [' '] := by simp [Blanks, isBlank]
  induction ms with
  | nil => exact .close (blanks_newLine depth)
  | cons m ms ih =>
    obtain ⟨hm, hms⟩ := List.forall_mem_cons.mp h
    exact spellsMembers_literal (separates_newLine _) hblank hm (ih hms)

/-- **The printer spells the value on lines of its own.** -/
theorem spells_prettyChars {v : Json} (h : Numbers Numeral.ReadsBack v) (depth : Nat) :
    Spells v (prettyChars depth v) := by
  have hblank : Blanks [' '] := by simp [Blanks, isBlank]
  induction h generalizing depth with
  | null => exact .null
  | flag b => exact .flag b
  | number h => exact .number h
  | text s => exact spells_literal s
  | @list vs _ ih =>
    cases vs with
    | nil => exact .list (.close blanks_nil)
    | cons v vs =>
      obtain ⟨hv, hvs⟩ := List.forall_mem_cons.mp fun v hv => ih v hv (depth + 1)
      exact .list (.item (.first (blanks_newLine _)) hv (spellsItems_prettyItems hvs))
  | @object ms _ ih =>
    cases ms with
    | nil => exact .object (.close blanks_nil)
    | cons m ms =>
      obtain ⟨hm, hms⟩ := List.forall_mem_cons.mp fun m hm => ih m hm (depth + 1)
      exact .object (spellsMembers_literal (.first (blanks_newLine _)) hblank hm
        (spellsMembers_prettyMembers hms))

end ShellPreview.Json
