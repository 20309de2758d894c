import ShellPreview.Proofs.Json.Accepting
import ShellPreview.Proofs.Json.Sorted
/-!
# What reading gives

Whatever a text is, a value that is read from it nests no deeper than
there was room for, and its whole numbers are of 64 bits. A record that is
read has its fields in order, each with a value that the reader of the
field gave or with what stands for the field when it is absent.
-/

namespace ShellPreview.Json

/-- The reader gives the value for some text. -/
def Gives {α : Type} (reader : List Char → Reading α) (x : α) : Prop :=
  ∃ cs r, reader cs = .ok (x, r)

/-! ## Items and members -/

section Inside

variable {fuel : Nat} {first : Bool} {cs r : List Char}

/-- Every item was given by the reader of items. -/
theorem gives_of_readItems {α : Type} {item : List Char → Reading α} {xs : List α}
    (h : readItems item fuel first cs = .ok (xs, r)) : ∀ x ∈ xs, Gives item x := by
  induction fuel generalizing first cs xs with
  | zero => cases h
  | succ fuel ih =>
    rw [readItems] at h
    split at h
    · cases h
    · cases h
      exact List.forall_mem_nil _
    · split at h
      · cases h
      · next hitem =>
        split at h
        · cases h
        · next hitems =>
          cases h
          exact List.forall_mem_cons.mpr ⟨⟨_, _, hitem⟩, ih hitems⟩

/-- What every member preserves holds behind all of them. -/
theorem invariant_of_readMembers {σ : Type} {member : σ → String → List Char → Reading σ}
    {P : σ → Prop} {s t : σ} (hs : P s)
    (hmember : ∀ s key cs s' r, P s → member s key cs = .ok (s', r) → P s')
    (h : readMembers member fuel first s cs = .ok (t, r)) : P t := by
  induction fuel generalizing first s cs with
  | zero => cases h
  | succ fuel ih =>
    rw [readMembers] at h
    split at h
    · cases h
    · cases h
      exact hs
    · split at h
      · cases h
      · split at h
        · cases h
        · next hm => exact ih (hmember _ _ _ _ _ hs hm) h

theorem ok_of_finishList {α : Type} {e : Reading α} {x : α} (h : finishList e = .ok (x, r)) :
    ∃ r', e = .ok (x, r') := by
  unfold finishList at h
  split at h
  · cases h
  · obtain ⟨_, _, heq⟩ := exists_of_map_eq_ok h
    cases heq
    exact ⟨_, rfl⟩

theorem ok_of_finishObject {α : Type} {e : Reading α} {x : α} (h : finishObject e = .ok (x, r)) :
    ∃ r', e = .ok (x, r') := by
  unfold finishObject at h
  split at h
  · cases h
  · obtain ⟨_, _, heq⟩ := exists_of_map_eq_ok h
    cases heq
    exact ⟨_, rfl⟩

end Inside

/-! ## Values -/

/-- A value that is read with this room: it nests no deeper, and its
numbers are of 64 bits or have a fraction. -/
def Fits (room : Nat) (v : Json) : Prop :=
  Nests room v ∧ Numbers Numeral.InRange v

theorem fits_list {room : Nat} {vs : List Json} (h : ∀ v ∈ vs, Fits room v) :
    Fits (room + 1) (.list vs) :=
  ⟨.list fun v hv => (h v hv).1, .list fun v hv => (h v hv).2⟩

theorem fits_object {room : Nat} {ms : List (String × Json)} (h : ∀ m ∈ ms, Fits room m.2) :
    Fits (room + 1) (.object ms) :=
  ⟨.object fun m hm => (h m hm).1, .object fun m hm => (h m hm).2⟩

theorem Fits.sorted {room : Nat} {v : Json} (h : Fits room v) : Fits room v.sorted :=
  ⟨h.1.sorted, h.2.sorted⟩

/-- Members that are read as any values fit if all values do. -/
theorem fits_of_readMember {room fuel : Nat} {first : Bool} {cs r : List Char}
    {ms : List (String × Json)} (hvalue : ∀ v, Gives (readValue room) v → Fits room v)
    (h : readMembers (readMember room) fuel first [] cs = .ok (ms, r)) :
    ∀ m ∈ ms, Fits room m.2 := by
  refine invariant_of_readMembers (P := fun ms => ∀ m ∈ ms, Fits room m.2) nofun ?_ h
  intro done key cs done' r hdone hmember
  unfold readMember at hmember
  split at hmember
  · cases hmember
  · obtain ⟨⟨v, r'⟩, hv, heq⟩ := exists_of_map_eq_ok hmember
    cases heq
    exact List.forall_mem_append.mpr ⟨hdone, by simpa using hvalue v ⟨_, _, hv⟩⟩

/-- **A value that is read fits.** -/
theorem fits_of_readValue {room : Nat} {v : Json} (h : Gives (readValue room) v) : Fits room v := by
  induction room using Nat.strongRecOn generalizing v with
  | _ room ih =>
    obtain ⟨cs, r, h⟩ := h
    -- the cases are the tests of the reader on the first character, in order
    unfold readValue at h
    split at h
    · cases h
    · split at h
      · obtain ⟨_, -, heq⟩ := exists_of_map_eq_ok h
        cases heq
        exact ⟨.null, .null⟩
      split at h
      · obtain ⟨_, -, heq⟩ := exists_of_map_eq_ok h
        cases heq
        exact ⟨.flag _, .flag _⟩
      split at h
      · obtain ⟨_, -, heq⟩ := exists_of_map_eq_ok h
        cases heq
        exact ⟨.flag _, .flag _⟩
      split at h
      · obtain ⟨_, -, heq⟩ := exists_of_map_eq_ok h
        cases heq
        exact ⟨.text _, .text _⟩
      split at h
      · obtain ⟨_, hread, heq⟩ := exists_of_map_eq_ok h
        cases heq
        exact ⟨.number _, .number (inRange_of_readNumeral hread)⟩
      split at h
      · split at h
        · cases h
        · next room =>
          obtain ⟨_, hread, heq⟩ := exists_of_map_eq_ok h
          cases heq
          obtain ⟨_, hitems⟩ := ok_of_finishList hread
          exact fits_list fun v hv =>
            ih room (Nat.lt_succ_self room) (gives_of_readItems hitems v hv)
      split at h
      · split at h
        · cases h
        · next room =>
          obtain ⟨_, hread, heq⟩ := exists_of_map_eq_ok h
          cases heq
          obtain ⟨_, hmembers⟩ := ok_of_finishObject hread
          exact fits_object (fits_of_readMember (fun v => ih room (Nat.lt_succ_self room)) hmembers)
      · cases h

/-! ## Normal forms -/

section Schemas

variable {room : Nat} {w : Json}

theorem gives_natural {word : String} (h : Gives ((Schema.natural word).read room) w) :
    ∃ n : Nat, n ≤ maxWhole ∧ w = .nat n := by
  obtain ⟨cs, r, h⟩ := h
  change readNatural word cs = _ at h
  unfold readNatural at h
  split at h
  · cases h
  · split at h
    · split at h
      · cases h
      · next i _ hread =>
        split at h
        · cases h
        · next hi =>
          cases h
          obtain ⟨-, hmost⟩ := inRange_of_readNumeral hread
          exact ⟨i.toNat, by omega, by rw [nat, Int.toNat_of_nonneg (by omega)]⟩
      · cases h
    · unfold mismatch at h
      split at h <;> cases h

theorem gives_dictionary (h : Gives (Schema.dictionary.read room) w) :
    ∃ ms, w = (Json.object ms).sorted ∧ Fits room (.object ms) := by
  obtain ⟨cs, r, h⟩ := h
  unfold Schema.read at h
  split at h
  · cases h
  · obtain ⟨⟨ms, _⟩, hread, heq⟩ := exists_of_map_eq_ok h
    cases heq
    obtain ⟨_, hmembers⟩ := ok_of_finishObject hread
    exact ⟨ms, rfl, fits_object (fits_of_readMember (fun v => fits_of_readValue) hmembers)⟩
  · unfold mismatch at h
    split at h <;> cases h

theorem gives_optional {form : Schema} (h : Gives ((Schema.optional form).read room) w) :
    w = .null ∨ Gives (form.read room) w := by
  obtain ⟨cs, r, h⟩ := h
  rw [Schema.read] at h
  split at h
  · obtain ⟨_, -, heq⟩ := exists_of_map_eq_ok h
    cases heq
    exact .inl rfl
  · exact .inr ⟨_, _, h⟩

end Schemas

/-! ## Records -/

/-- What stands for an absent field. -/
def Absent.Stands : Absent → Json → Prop
  | required, _ => False
  | optional, v => v = .null
  | fallback d, v => v = d

/-- The field has this member: one that its reader gave, or what stands for
it. -/
def Filled (field : String × Absent × (List Char → Reading Json)) (m : String × Json) : Prop :=
  m.1 = field.1 ∧ (Gives field.2.2 m.2 ∨ field.2.1.Stands m.2)

section Records

variable {fields : FieldsOf (List Char → Reading Json)} {cs r : List Char}
  {found outs : List (String × Json)}

theorem filled_of_complete (hkeys : (fields.map (·.1)).Nodup)
    (hfound : ∀ m ∈ found, ∃ f, fields.lookup m.1 = some f ∧ Gives f.2 m.2)
    {part : FieldsOf (List Char → Reading Json)} (hpart : part ⊆ fields)
    (h : complete found part = .ok outs) : List.Forall₂ Filled part outs := by
  induction part generalizing outs with
  | nil =>
    cases h
    exact .nil
  | cons f part ih =>
    obtain ⟨hf, hlater⟩ := List.cons_subset.mp hpart
    obtain ⟨key, absent, form⟩ := f
    simp only [complete] at h
    split at h
    · cases h
    · obtain ⟨_, hrest, rfl⟩ := exists_of_map_eq_ok h
      exact .cons ⟨rfl, .inr rfl⟩ (ih hlater hrest)
    · obtain ⟨_, hrest, rfl⟩ := exists_of_map_eq_ok h
      exact .cons ⟨rfl, .inr rfl⟩ (ih hlater hrest)
    · next v hv =>
      obtain ⟨_, hrest, rfl⟩ := exists_of_map_eq_ok h
      obtain ⟨f, hlookup, hgives⟩ := hfound _ (mem_of_lookup hv)
      rw [lookup_of_mem hkeys hf] at hlookup
      cases hlookup
      exact .cons ⟨rfl, .inl hgives⟩ (ih hlater hrest)

/-- The members that were found were given by the readers of their fields. -/
theorem gives_of_readField {fuel : Nat} {first : Bool}
    (h : readMembers (readField fields) fuel first [] cs = .ok (found, r)) :
    ∀ m ∈ found, ∃ f, fields.lookup m.1 = some f ∧ Gives f.2 m.2 := by
  refine invariant_of_readMembers
    (P := fun found => ∀ m ∈ found, ∃ f, fields.lookup m.1 = some f ∧ Gives f.2 m.2) nofun ?_ h
  intro done key cs done' r hdone hmember
  unfold readField at hmember
  split at hmember
  · split at hmember
    · cases hmember
    · obtain ⟨_, -, heq⟩ := exists_of_map_eq_ok hmember
      cases heq
      exact hdone
  · next absent form hlookup =>
    split at hmember
    · cases hmember
    · split at hmember
      · cases hmember
      · obtain ⟨⟨v, r'⟩, hv, heq⟩ := exists_of_map_eq_ok hmember
        cases heq
        refine List.forall_mem_append.mpr ⟨hdone, ?_⟩
        simpa using ⟨absent, form, hlookup, _, _, hv⟩

theorem filled_of_completeList {what : String} {all index : Nat}
    (h : completeList what all index fields = .ok outs) : List.Forall₂ Filled fields outs := by
  induction fields generalizing index outs with
  | nil =>
    cases h
    exact .nil
  | cons f fields ih =>
    obtain ⟨key, absent, form⟩ := f
    cases absent with
    | fallback d =>
      obtain ⟨_, hrest, rfl⟩ := exists_of_map_eq_ok h
      exact .cons ⟨rfl, .inr rfl⟩ (ih hrest)
    | _ => cases h

theorem filled_of_readInOrder {what : String} {all index : Nat} {first : Bool}
    (h : readInOrder what all index first fields cs = .ok (outs, r)) :
    List.Forall₂ Filled fields outs := by
  induction fields generalizing index first cs outs with
  | nil =>
    cases h
    exact .nil
  | cons f fields ih =>
    obtain ⟨key, absent, form⟩ := f
    rw [readInOrder] at h
    split at h
    · cases h
    · unfold loosely at h
      split at h
      · cases h
      · next hrest =>
        cases h
        exact filled_of_completeList hrest
    · split at h
      · cases h
      · next hv =>
        obtain ⟨⟨_, _⟩, hrest, heq⟩ := exists_of_map_eq_ok h
        cases heq
        exact .cons ⟨rfl, .inl ⟨_, _, hv⟩⟩ (ih hrest)

/-- **A record that is read has every field.** -/
theorem gives_record {what : String} {room : Nat}
    {fields : Nat → FieldsOf (List Char → Reading Json)} {w : Json}
    (hkeys : ∀ room, ((fields room).map (·.1)).Nodup)
    (h : Gives (readRecord what room fields) w) :
    ∃ room' outs, room = room' + 1 ∧ w = .object outs ∧
      List.Forall₂ Filled (fields room') outs := by
  obtain ⟨cs, r, h⟩ := h
  unfold readRecord at h
  split at h
  · cases h
  · next room _ =>
    obtain ⟨⟨outs, _⟩, hread, heq⟩ := exists_of_map_eq_ok h
    cases heq
    obtain ⟨_, hitems⟩ := ok_of_finishList hread
    exact ⟨room, outs, rfl, rfl, filled_of_readInOrder hitems⟩
  · cases h
  · next room _ =>
    obtain ⟨⟨outs, _⟩, hread, heq⟩ := exists_of_map_eq_ok h
    cases heq
    obtain ⟨_, hmembers⟩ := ok_of_finishObject hread
    rw [readRecordMembers_eq] at hmembers
    split at hmembers
    · cases hmembers
    · next found _ hfound =>
      unfold loosely at hmembers
      split at hmembers
      · cases hmembers
      · next hcomplete =>
        cases hmembers
        exact ⟨room, outs, rfl, rfl, filled_of_complete (hkeys room) (gives_of_readField hfound)
          (List.Subset.refl _) hcomplete⟩
  · unfold mismatch at h
    split at h <;> cases h

end Records

theorem readFields_keys (fields : List (String × Absent × Schema)) (room : Nat) :
    (Schema.readFields fields room).map (·.1) = fields.map (·.1) := by
  induction fields with
  | nil => rfl
  | cons f fields ih =>
    obtain ⟨key, absent, form⟩ := f
    rw [Schema.readFields, List.map_cons, List.map_cons, ih]

theorem mem_readFields {key : String} {absent : Absent} {form : Schema}
    {fields : List (String × Absent × Schema)} (h : (key, absent, form) ∈ fields) (room : Nat) :
    (key, absent, fun cs => form.read room cs) ∈ Schema.readFields fields room := by
  induction fields with
  | nil => cases h
  | cons f fields ih =>
    obtain ⟨key', absent', form'⟩ := f
    rw [Schema.readFields]
    rcases List.mem_cons.mp h with heq | h
    · cases heq
      exact List.mem_cons_self
    · exact List.mem_cons_of_mem _ (ih h)

theorem keys_of_filled {fields : FieldsOf (List Char → Reading Json)}
    {outs : List (String × Json)} (h : List.Forall₂ Filled fields outs) :
    outs.map (·.1) = fields.map (·.1) := by
  induction h with
  | nil => rfl
  | cons hf _ ih => rw [List.map_cons, List.map_cons, ih, hf.1]

/-- The value of a field is the one that the field is filled with. -/
theorem filled_field {fields : FieldsOf (List Char → Reading Json)} {outs : List (String × Json)}
    (hkeys : (fields.map (·.1)).Nodup) (h : List.Forall₂ Filled fields outs) :
    ∀ f ∈ fields, Filled f (f.1, (Json.object outs).field f.1) := by
  -- the last member with a key is its value, but every key is there once
  have hnodup : (outs.reverse.map (·.1)).Nodup := by
    rw [List.map_reverse, List.nodup_reverse, keys_of_filled h]
    exact hkeys
  have hall : ∀ f ∈ fields, ∃ m ∈ outs, Filled f m := by
    clear hkeys hnodup
    induction h with
    | nil => exact nofun
    | cons hf _ ih =>
      refine List.forall_mem_cons.mpr ⟨⟨_, List.mem_cons_self, hf⟩, fun f hmem => ?_⟩
      obtain ⟨m, hm, hfilled⟩ := ih f hmem
      exact ⟨m, List.mem_cons_of_mem _ hm, hfilled⟩
  intro f hf
  obtain ⟨⟨key, v⟩, hm, hkey, hv⟩ := hall f hf
  have hlookup := lookup_of_mem hnodup (List.mem_reverse.mpr hm)
  rw [field_object, ← hkey, hlookup]
  exact ⟨hkey, hv⟩

/-- **The value of a field was read by the form of the field, or stands for
it.** -/
theorem gives_field {what key : String} {absent : Absent} {form : Schema}
    {fields : List (String × Absent × Schema)} {room : Nat} {w : Json}
    (hkeys : (fields.map (·.1)).Nodup) (h : Gives ((Schema.record what fields).read room) w)
    (hf : (key, absent, form) ∈ fields) :
    ∃ room', room = room' + 1 ∧
      (Gives (form.read room') (w.field key) ∨ absent.Stands (w.field key)) := by
  obtain ⟨cs, r, h⟩ := h
  have hall : ∀ room, ((Schema.readFields fields room).map (·.1)).Nodup := fun room =>
    (readFields_keys fields room).symm ▸ hkeys
  obtain ⟨room', outs, rfl, rfl, hfilled⟩ := gives_record hall ⟨cs, r, h⟩
  exact ⟨room', rfl, (filled_field (hall room') hfilled _ (mem_readFields hf room')).2⟩

/-- What a whole text is read as was given by the reader. -/
theorem gives_of_parse {form : Schema} {text : String} {w : Json} (h : form.parse text = .ok w) :
    Gives (form.read maxDepth) w := by
  simp only [Schema.parse, readWhole] at h
  split at h
  · cases h
  · next hread =>
    split at h
    · cases h
    · cases h
      exact ⟨_, _, hread⟩

end ShellPreview.Json
