import Mathlib.Data.List.Forall2
import ShellPreview.Proofs.Json.Spelling
/-!
# Reading what is spelled

A reader of one value `Reads` the value `v` as `x` if it gives `x` on
every way to spell `v`, with blanks in front and whatever ends a number
behind. The parts that all readers of lists and objects share are shown
for any reader of items and any step of members, so that a reader has only
to say what it does with one item and one member.
-/

namespace ShellPreview.Json

/-- The reader gives `x` for every way to write `v`, and leaves what stands
behind it. -/
def Reads {α : Type} (reader : List Char → Reading α) (v : Json) (x : α) : Prop :=
  ∀ {bs cs rest : List Char}, Blanks bs → Spells v cs → Ends rest →
    reader (bs ++ (cs ++ rest)) = .ok (x, rest)

/-- The same behind a key, where a colon and blanks stand in front. -/
def ReadsBehind {σ : Type} (member : List Char → Reading σ) (v : Json) (x : σ) : Prop :=
  ∀ {bs bs' cs rest : List Char}, Blanks bs → Blanks bs' → Spells v cs → Ends rest →
    member (bs ++ ':' :: (bs' ++ (cs ++ rest))) = .ok (x, rest)

/-- One step for each member, from a state to a state. -/
inductive Steps {σ : Type} (member : σ → String → List Char → Reading σ) :
    σ → List (String × Json) → σ → Prop
  | nil (s : σ) : Steps member s [] s
  | cons {s s' t : σ} {key : String} {v : Json} {ms : List (String × Json)}
      (hm : ReadsBehind (member s key) v s') (hms : Steps member s' ms t) :
      Steps member s ((key, v) :: ms) t

/-! ## Between items and members -/

section Between

variable {first : Bool} {bs sep r : List Char} {c : Char}

theorem nextItem_close (hbs : Blanks bs) (r : List Char) :
    nextItem first (bs ++ ']' :: r) = .ok (false, ']' :: r) := by
  rw [nextItem, skipBlanks_append hbs, skipBlanks_cons (by decide)]
  rfl

theorem nextItem_item (hsep : Separates first sep) (hblank : isBlank c = false) (hclose : c ≠ ']')
    (r : List Char) : nextItem first (sep ++ c :: r) = .ok (true, c :: r) := by
  cases hsep with
  | first hbs =>
    rw [nextItem, skipBlanks_append hbs, skipBlanks_cons hblank]
    simp
  | later hbs hbs' =>
    rw [nextItem, List.append_assoc, List.cons_append, skipBlanks_append hbs,
      skipBlanks_cons (by decide)]
    simp [skipBlanks_append hbs', skipBlanks_cons hblank, hclose]

theorem nextKey_close (hbs : Blanks bs) (r : List Char) :
    nextKey first (bs ++ '\x7d' :: r) = .ok (false, '\x7d' :: r) := by
  rw [nextKey, skipBlanks_append hbs, skipBlanks_cons (by decide)]
  rfl

theorem nextKey_key (hsep : Separates first sep) (r : List Char) :
    nextKey first (sep ++ '\x22' :: r) = .ok (true, r) := by
  cases hsep with
  | first hbs =>
    rw [nextKey, skipBlanks_append hbs, skipBlanks_cons (by decide)]
    simp
  | later hbs hbs' =>
    rw [nextKey, List.append_assoc, List.cons_append, skipBlanks_append hbs,
      skipBlanks_cons (by decide)]
    simp [skipBlanks_append hbs', skipBlanks_cons (c := '\x22') (by decide)]

theorem readColon_eq (hbs : Blanks bs) (r : List Char) : readColon (bs ++ ':' :: r) = .ok r := by
  rw [readColon, skipBlanks_append hbs, skipBlanks_cons (by decide)]
  rfl

theorem closeList_eq (r : List Char) : closeList (']' :: r) = .ok r := by
  rw [closeList, skipBlanks_cons (by decide)]
  rfl

theorem closeObject_eq (r : List Char) : closeObject ('\x7d' :: r) = .ok r := by
  rw [closeObject, skipBlanks_cons (by decide)]
  rfl

end Between

/-! ## Lists and objects -/

section Inside

variable {first : Bool} {cs rest : List Char} {fuel : Nat}

theorem SpellsItems.length_lt {vs : List Json} (h : SpellsItems first vs cs) :
    vs.length < cs.length := by
  induction vs generalizing first cs with
  | nil =>
    cases h
    simp
  | cons v vs ih =>
    cases h with
    | item hsep hv hvs =>
      obtain ⟨c, ds, rfl, -⟩ := hv.head
      have hlater := ih hvs
      simp only [List.length_append, List.length_cons]
      omega

theorem SpellsMembers.length_lt {ms : List (String × Json)} (h : SpellsMembers first ms cs) :
    ms.length < cs.length := by
  induction ms generalizing first cs with
  | nil =>
    cases h
    simp
  | cons m ms ih =>
    cases h with
    | member hsep hkey hbs hbs' hv hms =>
      have hlater := ih hms
      simp only [List.length_append, List.length_cons]
      omega

/-- **Items are read one by one.** -/
theorem readItems_eq {α : Type} {item : List Char → Reading α} {vs : List Json} {xs : List α}
    (h : List.Forall₂ (Reads item) vs xs) (hcs : SpellsItems first vs cs)
    (hfuel : vs.length < fuel) :
    readItems item fuel first (cs ++ rest) = .ok (xs, ']' :: rest) := by
  induction h generalizing first cs fuel with
  | nil =>
    obtain ⟨fuel, rfl⟩ := Nat.exists_eq_succ_of_ne_zero (Nat.ne_zero_of_lt hfuel)
    cases hcs with
    | close hbs => simp [readItems, nextItem_close hbs]
  | @cons v x vs xs hv _ ih =>
    obtain ⟨fuel, rfl⟩ := Nat.exists_eq_succ_of_ne_zero (Nat.ne_zero_of_lt hfuel)
    cases hcs with
    | @item _ sep cs ds _ _ hsep hcs hds =>
      have hitem := hv blanks_nil hcs (hds.ends rest)
      have hlater := ih hds (Nat.lt_of_succ_lt_succ hfuel)
      obtain ⟨c, r, rfl, hblank, -, hclose, -⟩ := hcs.head
      have hnext := nextItem_item hsep hblank hclose (r ++ (ds ++ rest))
      -- all three are about one text, once the brackets in it are moved
      simp only [List.append_assoc, List.cons_append, List.nil_append] at hitem hnext ⊢
      simp only [readItems, hnext, hitem, hlater]

/-- **Members are read one by one.** -/
theorem readMembers_eq {σ : Type} {member : σ → String → List Char → Reading σ} {s t : σ}
    {ms : List (String × Json)} (h : Steps member s ms t) (hcs : SpellsMembers first ms cs)
    (hfuel : ms.length < fuel) :
    readMembers member fuel first s (cs ++ rest) = .ok (t, '\x7d' :: rest) := by
  induction h generalizing first cs fuel with
  | nil s =>
    obtain ⟨fuel, rfl⟩ := Nat.exists_eq_succ_of_ne_zero (Nat.ne_zero_of_lt hfuel)
    cases hcs with
    | close hbs => simp [readMembers, nextKey_close hbs]
  | cons hm _ ih =>
    obtain ⟨fuel, rfl⟩ := Nat.exists_eq_succ_of_ne_zero (Nat.ne_zero_of_lt hfuel)
    cases hcs with
    | member hsep hkey hbs hbs' hcs hds =>
      have hvalue := hm hbs hbs' hcs (hds.ends rest)
      have hlater := ih hds (Nat.lt_of_succ_lt_succ hfuel)
      simp only [List.append_assoc, List.cons_append] at hvalue ⊢
      simp only [readMembers, nextKey_key hsep, hkey.readText_eq, hvalue, hlater]

/-! As many steps as there are characters are enough. -/

theorem readItems_whole {α : Type} {item : List Char → Reading α} {vs : List Json} {xs : List α}
    (h : List.Forall₂ (Reads item) vs xs) (hcs : SpellsItems first vs cs) (rest : List Char) :
    readItems item ((cs ++ rest).length + 1) first (cs ++ rest) = .ok (xs, ']' :: rest) := by
  refine readItems_eq h hcs ?_
  have hlength := hcs.length_lt
  rw [List.length_append]
  omega

theorem readMembers_whole {σ : Type} {member : σ → String → List Char → Reading σ} {s t : σ}
    {ms : List (String × Json)} (h : Steps member s ms t) (hcs : SpellsMembers first ms cs)
    (rest : List Char) :
    readMembers member ((cs ++ rest).length + 1) first s (cs ++ rest) =
      .ok (t, '\x7d' :: rest) := by
  refine readMembers_eq h hcs ?_
  have hlength := hcs.length_lt
  rw [List.length_append]
  omega

theorem finishList_ok {α : Type} (x : α) (rest : List Char) :
    finishList (.ok (x, ']' :: rest)) = .ok (x, rest) := by
  rw [finishList, closeList_eq]
  rfl

theorem finishObject_ok {α : Type} (x : α) (rest : List Char) :
    finishObject (.ok (x, '\x7d' :: rest)) = .ok (x, rest) := by
  rw [finishObject, closeObject_eq]
  rfl

end Inside

/-! ## Any value -/

/-- What a member does to those in front of it when its value may be any. -/
def readMember (room : Nat) (ms : List (String × Json)) (key : String) (cs : List Char) :
    Reading (List (String × Json)) :=
  match readColon cs with
  | .error stop => .error stop
  | .ok r => (readValue room r).map fun (v, r) => (ms ++ [(key, v)], r)

theorem readsBehind_readMember {room : Nat} {v : Json} (h : Reads (readValue room) v v)
    (ms : List (String × Json)) (key : String) :
    ReadsBehind (readMember room ms key) v (ms ++ [(key, v)]) := by
  intro bs bs' cs rest hbs hbs' hcs hrest
  simp [readMember, readColon_eq hbs, h hbs' hcs hrest, Except.map]

/-- Members of any values are put one behind the other. -/
theorem steps_readMember {room : Nat} {ms : List (String × Json)}
    (h : ∀ m ∈ ms, Reads (readValue room) m.2 m.2) (done : List (String × Json)) :
    Steps (readMember room) done ms (done ++ ms) := by
  induction ms generalizing done with
  | nil => simpa using Steps.nil done
  | cons m ms ih =>
    obtain ⟨hm, hms⟩ := List.forall_mem_cons.mp h
    have hlater := ih hms (done ++ [m])
    rw [List.append_assoc, List.singleton_append] at hlater
    exact .cons (readsBehind_readMember hm done m.1) hlater

theorem readValue_append {bs : List Char} (hbs : Blanks bs) (room : Nat) (cs : List Char) :
    readValue room (bs ++ cs) = readValue room cs := by
  unfold readValue
  rw [skipBlanks_append hbs]

theorem skipValueIn_append {fuel : Nat} {bs : List Char} (hbs : Blanks bs) (cs : List Char) :
    skipValueIn (fuel + 1) (bs ++ cs) = skipValueIn (fuel + 1) cs := by
  unfold skipValueIn
  rw [skipBlanks_append hbs]

/-! What a value is, its first letter tells, however deep it may nest. -/

theorem readValue_null (room : Nat) (rest : List Char) :
    readValue room ('n' :: 'u' :: 'l' :: 'l' :: rest) = .ok (.null, rest) := by
  cases room <;> rfl

theorem readValue_flag (b : Bool) (room : Nat) (rest : List Char) :
    readValue room (flagChars b ++ rest) = .ok (.flag b, rest) := by
  cases b <;> cases room <;> rfl

theorem readValue_literal {s cs : List Char} (h : Escapes s cs) (room : Nat) (rest : List Char) :
    readValue room ('\x22' :: (cs ++ '\x22' :: rest)) = .ok (.text (String.ofList s), rest) := by
  have hread : readText (cs ++ '\x22' :: rest) = .ok (s, rest) := h.readText_eq
  cases room <;>
  · show Except.map _ (readText _) = _
    rw [hread]
    rfl

theorem readValue_numeral {cs rest : List Char} {n : Numeral} (hrest : Ends rest)
    (h : readNumeral cs = .ok (n, [])) (room : Nat) :
    readValue room (cs ++ rest) = .ok (.number n, rest) := by
  have hread := readNumeral_append hrest h
  obtain ⟨c, ds, rfl, hc⟩ := head_of_readNumeral h
  obtain ⟨hn, ht, hf, hquote⟩ := hc.other
  rw [List.cons_append] at hread ⊢
  rw [readValue, skipBlanks_cons hc.blank]
  simp [hn, ht, hf, hquote, hc.test, hread, Except.map]

theorem readValue_list (room : Nat) (r : List Char) :
    readValue (room + 1) ('[' :: r) =
      (finishList (readItems (readValue room) (r.length + 1) true r)).map fun (vs, r) =>
        (.list vs, r) :=
  rfl

theorem readValue_object (room : Nat) (r : List Char) :
    readValue (room + 1) ('\x7b' :: r) =
      (finishObject (readMembers (readMember room) (r.length + 1) true [] r)).map fun (ms, r) =>
        (.object ms, r) :=
  rfl

/-- **A value is read as itself**, if its lists and objects do not nest too
deep. -/
theorem reads_readValue {room : Nat} {v : Json} (h : Nests room v) :
    Reads (readValue room) v v := by
  induction h with
  | null =>
    intro bs cs rest hbs hcs _
    cases hcs
    rw [readValue_append hbs]
    exact readValue_null _ rest
  | flag b =>
    intro bs cs rest hbs hcs _
    cases hcs
    rw [readValue_append hbs, readValue_flag]
  | number n =>
    intro bs cs rest hbs hcs hrest
    cases hcs with
    | number h =>
      rw [readValue_append hbs]
      exact readValue_numeral hrest h _
  | text s =>
    intro bs cs rest hbs hcs _
    cases hcs with
    | text h =>
      rw [readValue_append hbs, List.cons_append, List.append_assoc]
      exact readValue_literal h _ _
  | list _ ih =>
    intro bs cs rest hbs hcs _
    cases hcs with
    | list h =>
      have hitems : List.Forall₂ (Reads (readValue _)) _ _ :=
        List.forall₂_same.mpr fun v hv => ih v hv
      rw [readValue_append hbs, List.cons_append, readValue_list, readItems_whole hitems h,
        finishList_ok]
      rfl
  | object _ ih =>
    intro bs cs rest hbs hcs _
    cases hcs with
    | object h =>
      rw [readValue_append hbs, List.cons_append, readValue_object,
        readMembers_whole (steps_readMember ih []) h, finishObject_ok]
      rfl

end ShellPreview.Json
