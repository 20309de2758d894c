import ShellPreview.Proofs.Json.Given
import ShellPreview.Proofs.Json.Numeral.Grammar
/-!
# What is read is spelled

The readers give nothing but what stands in the text: a value that is read
is spelled by the piece of the text that was taken for it. Together with
the other direction, that what is spelled is read, `parse_eq_ok_iff` says
which texts are read at all: those of the grammar whose lists and objects
do not nest too deep.
-/

namespace ShellPreview.Json

/-- The text begins with a way to write the value, behind blanks, and `r`
comes after it. -/
def Spelled (v : Json) (cs r : List Char) : Prop :=
  ∃ bs ds, Blanks bs ∧ Spells v ds ∧ cs = bs ++ (ds ++ r)

section Tokens

variable {cs r : List Char} {n : Nat} {x : Char}

theorem blanks_append_skipBlanks (cs : List Char) :
    ∃ bs, Blanks bs ∧ cs = bs ++ skipBlanks cs :=
  ⟨cs.takeWhile isBlank, fun _ hb => List.mem_takeWhile_imp hb,
    List.takeWhile_append_dropWhile.symm⟩

theorem readWord_eq_ok {ws : List Char} (h : readWord ws cs = .ok r) : cs = ws ++ r := by
  induction ws generalizing cs with
  | nil =>
    cases h
    rfl
  | cons w ws ih =>
    cases cs with
    | nil => cases h
    | cons c cs =>
      rw [readWord] at h
      split at h
      · next hc => rw [hc, ih h, List.cons_append]
      · cases h

/-! ## Texts -/

theorem readHex_eq_ok (h : readHex cs = .ok (n, r)) :
    ∃ a b c d, cs = a :: b :: c :: d :: r ∧ fourHex a b c d = some n := by
  unfold readHex at h
  split at h
  · split at h
    · next hfour =>
      cases h
      exact ⟨_, _, _, _, rfl, hfour⟩
    · cases h
  · cases h

theorem readLowSurrogate_eq_ok {high : Nat} (h : readLowSurrogate high cs = .ok (x, r)) :
    ∃ a b c d low, cs = '\\' :: 'u' :: a :: b :: c :: d :: r ∧ fourHex a b c d = some low ∧
      isLowSurrogate low = true ∧
      x = Char.ofNat (0x10000 + 0x400 * (high - 0xD800) + (low - 0xDC00)) := by
  unfold readLowSurrogate at h
  split at h
  · cases h
  · cases h
  · split at h
    · cases h
    · next hhex =>
      split at h
      · next hlow =>
        simp only [Except.ok.injEq, Prod.mk.injEq] at h
        obtain ⟨hx, rfl⟩ := h
        obtain ⟨a, b, c, d, rfl, hfour⟩ := readHex_eq_ok hhex
        exact ⟨a, b, c, d, _, rfl, hfour, hlow, hx.symm⟩
      · cases h
  · cases h
  · cases h

/-- What is read behind a backslash can stand there in front of any
text. -/
theorem readEscape_eq_ok (h : readEscape cs = .ok (x, r)) :
    ∃ es, cs = es ++ r ∧ ∀ {s ds}, Escapes s ds → Escapes (x :: s) ('\\' :: (es ++ ds)) := by
  unfold readEscape at h
  split at h
  · cases h
  · split at h
    · cases h
    · next hhex =>
      obtain ⟨a, b, c, d, rfl, hfour⟩ := readHex_eq_ok hhex
      split at h
      · cases h
      · next hlow =>
        have hlow := Bool.of_not_eq_true hlow
        split at h
        · next hhigh =>
          obtain ⟨a', b', c', d', m, rfl, hlast, hlow', hx⟩ := readLowSurrogate_eq_ok h
          refine ⟨['u', a, b, c, d, '\\', 'u', a', b', c', d'], rfl, fun hs => ?_⟩
          rw [hx]
          exact .pair hfour hhigh hlast hlow' hs
        · next hhigh =>
          cases h
          exact ⟨['u', a, b, c, d], rfl,
            fun hs => .number hfour hlow (Bool.of_not_eq_true hhigh) hs⟩
  · next l _ _ =>
    split at h
    · next hl =>
      cases h
      exact ⟨[l], rfl, fun hs => .letter hl hs⟩
    · cases h

theorem readTextIn_eq_ok {fuel : Nat} {s : List Char} (h : readTextIn fuel cs = .ok (s, r)) :
    ∃ es, Escapes s es ∧ cs = es ++ '\x22' :: r := by
  induction fuel generalizing cs s with
  | zero => cases cs <;> cases h
  | succ fuel ih =>
    cases cs with
    | nil => cases h
    | cons c cs =>
      rw [readTextIn] at h
      split at h
      · next hquote =>
        cases h
        exact ⟨[], .nil, by rw [hquote]; rfl⟩
      split at h
      · next hbackslash =>
        split at h
        · cases h
        · next hescape =>
          obtain ⟨⟨s', _⟩, hrest, heq⟩ := exists_of_map_eq_ok h
          cases heq
          obtain ⟨front, rfl, hfront⟩ := readEscape_eq_ok hescape
          obtain ⟨es, hes, rfl⟩ := ih hrest
          refine ⟨'\\' :: (front ++ es), hfront hes, ?_⟩
          rw [hbackslash, List.cons_append, List.append_assoc]
      · next hquote hbackslash =>
        split at h
        · cases h
        · next hcontrol =>
          obtain ⟨⟨s', _⟩, hrest, heq⟩ := exists_of_map_eq_ok h
          cases heq
          obtain ⟨es, hes, rfl⟩ := ih hrest
          exact ⟨c :: es, .plain hquote hbackslash hcontrol hes, rfl⟩

/-- **A text that is read is written in front of a closing quote.** -/
theorem readText_eq_ok {s : List Char} (h : readText cs = .ok (s, r)) :
    ∃ es, Escapes s es ∧ cs = es ++ '\x22' :: r :=
  readTextIn_eq_ok h

end Tokens

/-! ## Between items and members -/

section Between

variable {first : Bool} {cs r sep bs : List Char}

theorem Separates.append (h : Separates first sep) (hbs : Blanks bs) :
    Separates first (sep ++ bs) := by
  cases h with
  | first h => exact .first (List.forall_mem_append.mpr ⟨h, hbs⟩)
  | later h h' =>
    rw [List.append_assoc, List.cons_append]
    exact .later h (List.forall_mem_append.mpr ⟨h', hbs⟩)

theorem nextItem_eq_close (h : nextItem first cs = .ok (false, r)) :
    ∃ bs r', Blanks bs ∧ cs = bs ++ r ∧ r = ']' :: r' := by
  obtain ⟨bs, hbs, hcs⟩ := blanks_append_skipBlanks cs
  unfold nextItem at h
  split at h
  · cases h
  · next r' hskip =>
    cases h
    exact ⟨bs, r', hbs, hskip ▸ hcs, rfl⟩
  · split at h
    · cases h
    · split at h
      · split at h <;> cases h
      · cases h

theorem nextItem_eq_item (h : nextItem first cs = .ok (true, r)) :
    ∃ sep, Separates first sep ∧ cs = sep ++ r := by
  obtain ⟨bs, hbs, hcs⟩ := blanks_append_skipBlanks cs
  unfold nextItem at h
  split at h
  · cases h
  · cases h
  · next c r' _ hskip =>
    rw [hskip] at hcs
    cases first with
    | true =>
      cases h
      exact ⟨bs, .first hbs, hcs⟩
    | false =>
      obtain ⟨bs', hbs', hr'⟩ := blanks_append_skipBlanks r'
      simp only [Bool.false_eq_true, if_false] at h
      split at h
      · next hcomma =>
        refine ⟨bs ++ ',' :: bs', .later hbs hbs', ?_⟩
        split at h
        · cases h
        · cases h
        · cases h
          rw [hcs, hcomma, List.append_assoc, List.cons_append, ← hr']
      · cases h

theorem nextKey_eq_close (h : nextKey first cs = .ok (false, r)) :
    ∃ bs r', Blanks bs ∧ cs = bs ++ r ∧ r = '\x7d' :: r' := by
  obtain ⟨bs, hbs, hcs⟩ := blanks_append_skipBlanks cs
  unfold nextKey at h
  split at h
  · cases h
  · next r' hskip =>
    cases h
    exact ⟨bs, r', hbs, hskip ▸ hcs, rfl⟩
  · split at h
    · split at h <;> cases h
    · split at h
      · split at h <;> cases h
      · cases h

theorem nextKey_eq_key (h : nextKey first cs = .ok (true, r)) :
    ∃ sep, Separates first sep ∧ cs = sep ++ '\x22' :: r := by
  obtain ⟨bs, hbs, hcs⟩ := blanks_append_skipBlanks cs
  unfold nextKey at h
  split at h
  · cases h
  · cases h
  · next c r' _ hskip =>
    rw [hskip] at hcs
    cases first with
    | true =>
      simp only [if_true] at h
      split at h
      · next hquote =>
        cases h
        exact ⟨bs, .first hbs, hquote ▸ hcs⟩
      · cases h
    | false =>
      obtain ⟨bs', hbs', hr'⟩ := blanks_append_skipBlanks r'
      simp only [Bool.false_eq_true, if_false] at h
      split at h
      · next hcomma =>
        refine ⟨bs ++ ',' :: bs', .later hbs hbs', ?_⟩
        split at h
        · cases h
        · next hquote =>
          cases h
          rw [hcs, hcomma, List.append_assoc, List.cons_append, ← hquote, ← hr']
        · cases h
        · cases h
      · cases h

theorem readColon_eq_ok (h : readColon cs = .ok r) : ∃ bs, Blanks bs ∧ cs = bs ++ ':' :: r := by
  obtain ⟨bs, hbs, hcs⟩ := blanks_append_skipBlanks cs
  unfold readColon at h
  split at h
  · cases h
  · next hskip =>
    cases h
    exact ⟨bs, hbs, hskip ▸ hcs⟩
  · cases h

end Between

/-! ## Lists and objects -/

section Inside

variable {fuel room : Nat} {first : Bool} {cs r : List Char}

/-- Items are spelled up to the closing bracket if every item is. -/
theorem readItems_spelled {item : List Char → Reading Json} {vs : List Json}
    (hitem : ∀ {cs v r}, item cs = .ok (v, r) → Spelled v cs r)
    (h : readItems item fuel first cs = .ok (vs, r)) :
    ∃ ds r', SpellsItems first vs ds ∧ cs = ds ++ r' ∧ r = ']' :: r' := by
  induction fuel generalizing first cs vs with
  | zero => cases h
  | succ fuel ih =>
    rw [readItems] at h
    split at h
    · cases h
    · next hnext =>
      cases h
      obtain ⟨bs, r', hbs, rfl, rfl⟩ := nextItem_eq_close hnext
      exact ⟨bs ++ [']'], r', .close hbs, by simp, rfl⟩
    · next hnext =>
      obtain ⟨sep, hsep, rfl⟩ := nextItem_eq_item hnext
      split at h
      · cases h
      · next hv =>
        obtain ⟨bs, ds, hbs, hds, rfl⟩ := hitem hv
        split at h
        · cases h
        · next hvs =>
          cases h
          obtain ⟨es, r', hes, rfl, rfl⟩ := ih hvs
          exact ⟨sep ++ bs ++ (ds ++ es), r', .item (hsep.append hbs) hds hes, by simp, rfl⟩

/-- Members of any values are spelled up to the closing brace if every value
is. -/
theorem readMembers_spelled {done all : List (String × Json)}
    (hvalue : ∀ {cs v r}, readValue room cs = .ok (v, r) → Spelled v cs r)
    (h : readMembers (readMember room) fuel first done cs = .ok (all, r)) :
    ∃ ms ds r', all = done ++ ms ∧ SpellsMembers first ms ds ∧ cs = ds ++ r' ∧
      r = '\x7d' :: r' := by
  induction fuel generalizing first cs done with
  | zero => cases h
  | succ fuel ih =>
    rw [readMembers] at h
    split at h
    · cases h
    · next hnext =>
      cases h
      obtain ⟨bs, r', hbs, rfl, rfl⟩ := nextKey_eq_close hnext
      exact ⟨[], bs ++ ['\x7d'], r', (List.append_nil _).symm, .close hbs, by simp, rfl⟩
    · next hnext =>
      obtain ⟨sep, hsep, rfl⟩ := nextKey_eq_key hnext
      split at h
      · cases h
      · next key _ hkey =>
        obtain ⟨ks, hks, rfl⟩ := readText_eq_ok hkey
        split at h
        · cases h
        · next hmember =>
          unfold readMember at hmember
          split at hmember
          · cases hmember
          · next hcolon =>
            obtain ⟨bs, hbs, rfl⟩ := readColon_eq_ok hcolon
            obtain ⟨⟨v, _⟩, hv, heq⟩ := exists_of_map_eq_ok hmember
            cases heq
            obtain ⟨bs', ds, hbs', hds, rfl⟩ := hvalue hv
            obtain ⟨ms, es, r', rfl, hes, rfl, rfl⟩ := ih h
            refine ⟨(String.ofList key, v) :: ms, _, r', by simp,
              .member hsep hks hbs hbs' hds hes, by simp, rfl⟩

/-- A list that is read is spelled, with its closing bracket. -/
theorem finishList_spelled {item : List Char → Reading Json} {vs : List Json}
    (hitem : ∀ {cs v r}, item cs = .ok (v, r) → Spelled v cs r)
    (h : finishList (readItems item fuel first cs) = .ok (vs, r)) :
    ∃ ds, SpellsItems first vs ds ∧ cs = ds ++ r := by
  obtain ⟨_, hitems⟩ := ok_of_finishList h
  obtain ⟨ds, _, hds, rfl, rfl⟩ := readItems_spelled hitem hitems
  rw [hitems, finishList_ok] at h
  cases h
  exact ⟨ds, hds, rfl⟩

/-- So is an object, with its closing brace. -/
theorem finishObject_spelled {ms : List (String × Json)}
    (hvalue : ∀ {cs v r}, readValue room cs = .ok (v, r) → Spelled v cs r)
    (h : finishObject (readMembers (readMember room) fuel first [] cs) = .ok (ms, r)) :
    ∃ ds, SpellsMembers first ms ds ∧ cs = ds ++ r := by
  obtain ⟨_, hmembers⟩ := ok_of_finishObject h
  obtain ⟨_, ds, _, rfl, hds, rfl, rfl⟩ := readMembers_spelled hvalue hmembers
  rw [hmembers, finishObject_ok] at h
  cases h
  exact ⟨ds, hds, rfl⟩

end Inside

/-! ## Values -/

/-- **A value that is read is spelled by what was taken for it.** The
induction is on the room, and the cases are the tests of the reader on the
first character. -/
theorem readValue_spelled {room : Nat} {v : Json} {cs r : List Char}
    (h : readValue room cs = .ok (v, r)) : Spelled v cs r := by
  induction room using Nat.strongRecOn generalizing v cs r with
  | _ room ih =>
    obtain ⟨bs, hbs, hcs⟩ := blanks_append_skipBlanks cs
    unfold readValue at h
    split at h
    · cases h
    · next c rest hskip =>
      rw [hskip] at hcs
      -- it is enough to spell the value from its first character on
      suffices hspelled : ∃ ds, Spells v ds ∧ c :: rest = ds ++ r by
        obtain ⟨ds, hds, hrest⟩ := hspelled
        exact ⟨bs, ds, hbs, hds, hrest ▸ hcs⟩
      split at h
      · next hc =>
        obtain ⟨_, hword, heq⟩ := exists_of_map_eq_ok h
        cases heq
        exact ⟨_, .null, by rw [hc, readWord_eq_ok hword]; rfl⟩
      split at h
      · next hc =>
        obtain ⟨_, hword, heq⟩ := exists_of_map_eq_ok h
        cases heq
        exact ⟨_, .flag true, by rw [hc, readWord_eq_ok hword]; rfl⟩
      split at h
      · next hc =>
        obtain ⟨_, hword, heq⟩ := exists_of_map_eq_ok h
        cases heq
        exact ⟨_, .flag false, by rw [hc, readWord_eq_ok hword]; rfl⟩
      split at h
      · next hc =>
        obtain ⟨⟨s, _⟩, htext, heq⟩ := exists_of_map_eq_ok h
        cases heq
        obtain ⟨es, hes, rfl⟩ := readText_eq_ok htext
        exact ⟨_, .text hes, by rw [hc]; simp⟩
      split at h
      · obtain ⟨⟨n, _⟩, hnumeral, heq⟩ := exists_of_map_eq_ok h
        cases heq
        obtain ⟨ds, -, hds, hread⟩ := recognizes_readNumeral.piece hnumeral
        exact ⟨ds, .number hread, hds⟩
      split at h
      · next hc =>
        split at h
        · cases h
        · next room =>
          obtain ⟨⟨vs, _⟩, hlist, heq⟩ := exists_of_map_eq_ok h
          cases heq
          obtain ⟨ds, hds, rfl⟩ := finishList_spelled (ih room (Nat.lt_succ_self room)) hlist
          exact ⟨'[' :: ds, .list hds, by rw [hc]; rfl⟩
      split at h
      · next hc =>
        split at h
        · cases h
        · next room =>
          obtain ⟨⟨ms, _⟩, hobject, heq⟩ := exists_of_map_eq_ok h
          cases heq
          obtain ⟨ds, hds, rfl⟩ := finishObject_spelled (ih room (Nat.lt_succ_self room)) hobject
          exact ⟨'\x7b' :: ds, .object hds, by rw [hc]; rfl⟩
      · cases h

/-! ## Whole texts -/

/-- The text writes the value: in one of the ways of the grammar, with any
blanks around it. Its lists and objects do not nest too deep; that its
numbers are in range is a part of what it is to spell them. -/
def Writes (v : Json) (text : String) : Prop :=
  Nests maxDepth v ∧
    ∃ bs cs bs', Blanks bs ∧ Spells v cs ∧ Blanks bs' ∧ text.toList = bs ++ (cs ++ bs')

/-- The printer writes the value. -/
theorem writes_compact {v : Json} (hv : Nests maxDepth v) (hnumbers : Numbers Numeral.ReadsBack v) :
    Writes v v.compact :=
  ⟨hv, [], v.compactChars, [], blanks_nil, spells_compactChars hnumbers, blanks_nil,
    by rw [compact, String.toList_ofList, List.append_nil, List.nil_append]⟩

/-- **The texts that are read are those that write a value**, and the value
is read as a map. -/
theorem parse_eq_ok_iff {text : String} {w : Json} :
    parse text = .ok w ↔ ∃ v, Writes v text ∧ v.sorted = w := by
  constructor
  · intro h
    obtain ⟨v, hwhole, rfl⟩ := exists_of_map_eq_ok h
    simp only [readWhole] at hwhole
    split at hwhole
    · cases hwhole
    · next r hread =>
      split at hwhole
      · cases hwhole
      · next hend =>
        cases hwhole
        obtain ⟨bs, cs, hbs, hcs, htext⟩ := readValue_spelled hread
        obtain ⟨bs', hbs', hr⟩ := blanks_append_skipBlanks r
        unfold readEnd at hend
        split at hend
        · next hskip =>
          rw [hskip, List.append_nil] at hr
          exact ⟨v, ⟨(fits_of_readValue ⟨_, _, hread⟩).1, bs, cs, bs', hbs, hcs, hbs', hr ▸ htext⟩,
            rfl⟩
        · cases hend
  · rintro ⟨v, ⟨hnests, bs, cs, bs', hbs, hcs, hbs', htext⟩, rfl⟩
    have hread := readWhole_eq (reads_readValue hnests) hbs hcs hbs'
    rw [← htext, String.ofList_toList] at hread
    rw [parse, hread]
    rfl

/-- A text that writes no value is refused. -/
theorem exists_fault_of_not_writes {text : String} (h : ∀ v, ¬Writes v text) :
    ∃ fault, parse text = .error fault := by
  cases hparse : parse text with
  | error fault => exact ⟨fault, rfl⟩
  | ok w =>
    obtain ⟨v, hv, -⟩ := (parse_eq_ok_iff).mp hparse
    exact absurd hv (h v)

end ShellPreview.Json
