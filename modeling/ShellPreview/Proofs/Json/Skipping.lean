import ShellPreview.Proofs.Json.Reading
/-!
# Passing over what is spelled

A value that nobody asks for is passed over in no more steps than twice
the number of its characters: `skipValue` leads behind every way to write
a value, however deep its lists and objects nest.
-/

namespace ShellPreview.Json

/-- The value is passed over, whatever way it is written. -/
def Skips (v : Json) : Prop :=
  ∀ {fuel : Nat} {bs cs rest : List Char}, Blanks bs → Spells v cs → Ends rest →
    2 * cs.length ≤ fuel + 1 → skipValueIn (fuel + 1) (bs ++ (cs ++ rest)) = .ok rest

theorem Spells.length_pos {v : Json} {cs : List Char} (h : Spells v cs) : 0 < cs.length := by
  obtain ⟨c, ds, rfl, -⟩ := h.head
  exact Nat.succ_pos _

/-- There are steps for the first value and for what follows. -/
theorem exists_eq_add_two {v : Json} {cs ds : List Char} {fuel : Nat} (h : Spells v cs)
    (hfuel : 2 * (cs.length + ds.length) < fuel) : ∃ fuel', fuel = fuel' + 2 := by
  have hpos := h.length_pos
  exact ⟨fuel - 2, by omega⟩

section Inside

variable {fuel : Nat} {bs bs' bs'' cs ds ks key rest : List Char} {v : Json}

/-- Items are passed over one by one. -/
theorem skipItems_eq {vs : List Json} (hv : Skips v) (hvs : ∀ v' ∈ vs, Skips v') (hbs : Blanks bs)
    (hcs : Spells v cs) (hds : SpellsItems false vs ds)
    (hfuel : 2 * (cs.length + ds.length) < fuel) :
    skipValueIn.skipItems fuel (bs ++ (cs ++ (ds ++ rest))) = .ok rest := by
  induction vs generalizing v bs cs ds fuel with
  | nil =>
    -- one step for the value, one for what follows it
    obtain ⟨fuel, rfl⟩ := exists_eq_add_two hcs hfuel
    have hitem : skipValueIn (fuel + 1) (bs ++ (cs ++ (ds ++ rest))) = .ok (ds ++ rest) :=
      hv hbs hcs (hds.ends rest) (by omega)
    cases hds with
    | close hbs' =>
      simp only [List.append_assoc, List.singleton_append] at hitem ⊢
      rw [skipValueIn.skipItems, hitem]
      simp only [skipBlanks_append hbs', skipBlanks_cons (c := ']') (by decide)]
  | cons v' vs ih =>
    obtain ⟨fuel, rfl⟩ := exists_eq_add_two hcs hfuel
    have hitem : skipValueIn (fuel + 1) (bs ++ (cs ++ (ds ++ rest))) = .ok (ds ++ rest) :=
      hv hbs hcs (hds.ends rest) (by omega)
    obtain ⟨hv', hvs⟩ := List.forall_mem_cons.mp hvs
    cases hds with
    | item hsep hcs' hds' =>
      cases hsep with
      | later hbs' hbs'' =>
        simp only [List.length_append, List.length_cons] at hfuel
        have hlater : skipValueIn.skipItems (fuel + 1) (_ ++ (_ ++ (_ ++ rest))) = .ok rest :=
          ih hv' hvs hbs'' hcs' hds' (by omega)
        simp only [List.append_assoc, List.cons_append] at hitem ⊢
        rw [skipValueIn.skipItems, hitem]
        simp only [skipBlanks_append hbs', skipBlanks_cons (c := ',') (by decide), hlater]

/-- Members are passed over one by one. -/
theorem skipMembers_eq {ms : List (String × Json)} (hv : Skips v) (hms : ∀ m ∈ ms, Skips m.2)
    (hbs : Blanks bs) (hkey : Escapes key ks) (hbs' : Blanks bs') (hbs'' : Blanks bs'')
    (hcs : Spells v cs) (hds : SpellsMembers false ms ds)
    (hfuel : 2 * (cs.length + ds.length) < fuel) :
    skipValueIn.skipMembers fuel (bs ++ '\x22' :: (ks ++ '\x22' ::
      (bs' ++ ':' :: (bs'' ++ (cs ++ (ds ++ rest)))))) = .ok rest := by
  induction ms generalizing v bs key ks bs' bs'' cs ds fuel with
  | nil =>
    obtain ⟨fuel, rfl⟩ := exists_eq_add_two hcs hfuel
    have hvalue : skipValueIn (fuel + 1) (bs'' ++ (cs ++ (ds ++ rest))) = .ok (ds ++ rest) :=
      hv hbs'' hcs (hds.ends rest) (by omega)
    cases hds with
    | close hbs₁ =>
      simp only [List.append_assoc, List.singleton_append] at hvalue ⊢
      rw [skipValueIn.skipMembers, skipBlanks_append hbs, skipBlanks_cons (by decide)]
      simp only [hkey.skipText_eq, readColon_eq hbs', hvalue, skipBlanks_append hbs₁,
        skipBlanks_cons (c := '\x7d') (by decide)]
  | cons m ms ih =>
    obtain ⟨fuel, rfl⟩ := exists_eq_add_two hcs hfuel
    have hvalue : skipValueIn (fuel + 1) (bs'' ++ (cs ++ (ds ++ rest))) = .ok (ds ++ rest) :=
      hv hbs'' hcs (hds.ends rest) (by omega)
    obtain ⟨hm, hlast⟩ := List.forall_mem_cons.mp hms
    cases hds with
    | member hsep hkey' hbs₁ hbs₂ hcs' hds' =>
      cases hsep with
      | later hbs₃ hbs₄ =>
        simp only [List.length_append, List.length_cons] at hfuel
        have hlater : skipValueIn.skipMembers (fuel + 1) (_ ++ '\x22' :: (_ ++ '\x22' ::
            (_ ++ ':' :: (_ ++ (_ ++ (_ ++ rest)))))) = .ok rest :=
          ih hm hlast hbs₄ hkey' hbs₁ hbs₂ hcs' hds' (by omega)
        simp only [List.append_assoc, List.cons_append] at hvalue ⊢
        rw [skipValueIn.skipMembers, skipBlanks_append hbs, skipBlanks_cons (by decide)]
        simp only [hkey.skipText_eq, readColon_eq hbs', hvalue, skipBlanks_append hbs₃,
          skipBlanks_cons (c := ',') (by decide), hlater]

theorem skipValueIn_list {vs : List Json} (h : ∀ v ∈ vs, Skips v) (hcs : SpellsItems true vs cs)
    (hfuel : 2 * cs.length < fuel) : skipValueIn (fuel + 1) ('[' :: (cs ++ rest)) = .ok rest := by
  rw [skipValueIn, skipBlanks_cons (by decide)]
  cases hcs with
  | close hbs => simp [skipBlanks_append hbs, skipBlanks_cons (c := ']') (by decide)]
  | item hsep hcs hds =>
    cases hsep with
    | first hbs =>
      obtain ⟨hv, hvs⟩ := List.forall_mem_cons.mp h
      simp only [List.length_append] at hfuel
      have hitems : skipValueIn.skipItems fuel ([] ++ (_ ++ (_ ++ rest))) = .ok rest :=
        skipItems_eq hv hvs blanks_nil hcs hds (by omega)
      obtain ⟨c, r, rfl, hblank, -, hclose, -⟩ := hcs.head
      simp only [List.append_assoc, List.cons_append, List.nil_append] at hitems ⊢
      simp [skipBlanks_append hbs, skipBlanks_cons hblank, hclose, hitems]

theorem skipValueIn_object {ms : List (String × Json)} (h : ∀ m ∈ ms, Skips m.2)
    (hcs : SpellsMembers true ms cs) (hfuel : 2 * cs.length < fuel) :
    skipValueIn (fuel + 1) ('\x7b' :: (cs ++ rest)) = .ok rest := by
  rw [skipValueIn, skipBlanks_cons (by decide)]
  cases hcs with
  | close hbs => simp [skipBlanks_append hbs, skipBlanks_cons (c := '\x7d') (by decide)]
  | member hsep hkey hbs' hbs'' hcs hds =>
    cases hsep with
    | first hbs =>
      obtain ⟨hm, hms⟩ := List.forall_mem_cons.mp h
      simp only [List.length_append, List.length_cons] at hfuel
      have hmembers : skipValueIn.skipMembers fuel ([] ++ '\x22' :: (_ ++ '\x22' ::
          (_ ++ ':' :: (_ ++ (_ ++ (_ ++ rest)))))) = .ok rest :=
        skipMembers_eq hm hms blanks_nil hkey hbs' hbs'' hcs hds (by omega)
      simp only [List.append_assoc, List.cons_append, List.nil_append] at hmembers ⊢
      simp [skipBlanks_append hbs, skipBlanks_cons (c := '\x22') (by decide), hmembers]

end Inside

theorem skipValueIn_numeral {fuel : Nat} {cs rest : List Char} {n : Numeral} (hrest : Ends rest)
    (h : readNumeral cs = .ok (n, [])) : skipValueIn (fuel + 1) (cs ++ rest) = .ok rest := by
  have hread := skipNumeral_of_read (readNumeral_append hrest h)
  obtain ⟨c, ds, rfl, hc⟩ := head_of_readNumeral h
  obtain ⟨hn, ht, hf, hquote⟩ := hc.other
  rw [List.cons_append] at hread ⊢
  rw [skipValueIn, skipBlanks_cons hc.blank]
  simp [hn, ht, hf, hquote, hc.test, hread]

/-- **Every value is passed over.** -/
theorem skips (v : Json) : Skips v := by
  induction v using ind with
  | null =>
    intro fuel bs cs rest hbs hcs _ hfuel
    cases hcs
    rw [skipValueIn_append hbs]
    rfl
  | flag b =>
    intro fuel bs cs rest hbs hcs _ hfuel
    cases hcs
    rw [skipValueIn_append hbs]
    cases b <;> rfl
  | number n =>
    intro fuel bs cs rest hbs hcs hrest hfuel
    cases hcs with
    | number h =>
      rw [skipValueIn_append hbs]
      exact skipValueIn_numeral hrest h
  | text s =>
    intro fuel bs cs rest hbs hcs _ hfuel
    cases hcs with
    | text h =>
      rw [skipValueIn_append hbs, List.cons_append, List.append_assoc]
      exact h.skipText_eq
  | list vs ih =>
    intro fuel bs cs rest hbs hcs _ hfuel
    cases hcs with
    | list h =>
      rw [List.length_cons] at hfuel
      rw [skipValueIn_append hbs, List.cons_append]
      exact skipValueIn_list ih h (by omega)
  | object ms ih =>
    intro fuel bs cs rest hbs hcs _ hfuel
    cases hcs with
    | object h =>
      rw [List.length_cons] at hfuel
      rw [skipValueIn_append hbs, List.cons_append]
      exact skipValueIn_object ih h (by omega)

theorem skipValue_eq {bs cs rest : List Char} {v : Json} (hbs : Blanks bs) (hcs : Spells v cs)
    (hrest : Ends rest) : skipValue (bs ++ (cs ++ rest)) = .ok rest := by
  refine skips v hbs hcs hrest ?_
  simp only [List.length_append]
  omega

end ShellPreview.Json
