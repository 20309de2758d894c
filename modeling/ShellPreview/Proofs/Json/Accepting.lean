import ShellPreview.Proofs.Json.Lookup
import ShellPreview.Proofs.Json.Schema
/-!
# Accepting a record

A record given as an object is accepted field by field: what matters is
only which value the object has for a field, not where. `Fills` says what
one field comes to, and `acceptRecord_object` that the record is accepted
if every field comes to something.
-/

namespace ShellPreview.Json

/-- The field comes to this member: to what the value given for it is
accepted as, or to what stands for it when none is given. -/
def Fills (given : List (String × Json)) (field : String × Absent × (Json → Except Cause Json))
    (m : String × Json) : Prop :=
  m.1 = field.1 ∧
    match given.lookup field.1, field.2.1 with
    | some v, _ => field.2.2 v = .ok m.2
    | none, .required => False
    | none, .optional => m.2 = .null
    | none, .fallback v => m.2 = v

/-- The value of a field among members, as it is accepted. -/
def accepted (fields : FieldsOf (Json → Except Cause Json)) (given : List (String × Json))
    (key : String) : Option Json :=
  (fields.lookup key).bind fun f => (given.lookup key).bind fun v => (f.2 v).toOption

section Record

variable {fields : FieldsOf (Json → Except Cause Json)} {given done outs : List (String × Json)}

theorem accepted_cons_self (key : String) (v : Json) :
    accepted fields ((key, v) :: given) key =
      (fields.lookup key).bind fun f => (f.2 v).toOption := by
  simp [accepted]

theorem accepted_cons_ne {k key : String} (h : k ≠ key) (v : Json) :
    accepted fields ((key, v) :: given) k = accepted fields given k := by
  rw [accepted, accepted, lookup_cons_ne h]

/-- The members are accepted, in whatever order they come: every key comes
once, and the value of a field is one that the field accepts. -/
theorem exists_acceptMembers (hkeys : (given.map (·.1)).Nodup)
    (hdone : ∀ m ∈ given, done.lookup m.1 = none)
    (h : ∀ m ∈ given, ∀ f, fields.lookup m.1 = some f → ∃ w, f.2 m.2 = .ok w) :
    ∃ found, acceptMembers fields done given = .ok found ∧
      ∀ key, found.lookup key = (done.lookup key).or (accepted fields given key) := by
  induction given generalizing done with
  | nil => exact ⟨done, rfl, fun key => by simp [accepted]⟩
  | cons m given ih =>
    obtain ⟨hm, hlater⟩ := List.forall_mem_cons.mp h
    obtain ⟨hnew, hold⟩ := List.forall_mem_cons.mp hdone
    obtain ⟨key, v⟩ := m
    obtain ⟨hkey, hkeys⟩ := List.nodup_cons.mp hkeys
    rw [acceptMembers]
    cases hfield : fields.lookup key with
    | none =>
      -- a key of no field leaves what is done as it is
      obtain ⟨found, hfound, hlookup⟩ := ih hkeys hold hlater
      refine ⟨found, hfound, fun k => ?_⟩
      rw [hlookup]
      by_cases hk : k = key
      · subst hk
        rw [accepted_cons_self, accepted, hfield, Option.bind_none, Option.bind_none]
      · rw [accepted_cons_ne hk]
    | some f =>
      -- the value goes to the end, so no later key may stand there already
      obtain ⟨w, hw⟩ := hm f hfield
      have hdone : ∀ m ∈ given, (done ++ [(key, w)]).lookup m.1 = none := by
        intro m hmem
        have hne : m.1 ≠ key := fun heq => hkey (List.mem_map.mpr ⟨m, hmem, heq⟩)
        rw [List.lookup_append, hold m hmem, lookup_cons_ne hne]
        rfl
      obtain ⟨found, hfound, hlookup⟩ := ih hkeys hdone hlater
      refine ⟨found, by simpa [hnew, hw] using hfound, fun k => ?_⟩
      rw [hlookup, List.lookup_append, Option.or_assoc]
      by_cases hk : k = key
      · subst hk
        simp [accepted_cons_self, hfield, hw, Except.toOption]
      · rw [accepted_cons_ne hk, lookup_cons_ne hk]
        rfl

/-- Every field that was found or may be absent is completed. -/
theorem complete_of_fills {found : List (String × Json)}
    {part : FieldsOf (Json → Except Cause Json)}
    (hfound : ∀ f ∈ part,
      found.lookup f.1 = (given.lookup f.1).bind fun v => (f.2.2 v).toOption)
    (h : List.Forall₂ (Fills given) part outs) : complete found part = .ok outs := by
  induction h with
  | nil => rfl
  | @cons f m part outs hfills _ ih =>
    obtain ⟨hf, hpart⟩ := List.forall_mem_cons.mp hfound
    have hlater := ih hpart
    obtain ⟨key, absent, form⟩ := f
    obtain ⟨key', w⟩ := m
    obtain ⟨rfl, hfills⟩ := hfills
    dsimp only at hf hfills
    cases hgiven : given.lookup key' with
    | some v =>
      rw [hgiven] at hfills
      have hvalue : found.lookup key' = some w := by simp [hf, hgiven, hfills, Except.toOption]
      simp [complete, hvalue, hlater, Except.map]
    | none =>
      rw [hgiven] at hfills
      have hvalue : found.lookup key' = none := by simp [hf, hgiven]
      cases absent with
      | required => cases hfills
      | _ => simp [complete, hvalue, hlater, hfills, Except.map]

theorem exists_of_forall₂ {α β : Type} {R : α → β → Prop} {xs : List α} {ys : List β}
    (h : List.Forall₂ R xs ys) : ∀ x ∈ xs, ∃ y, R x y := by
  induction h with
  | nil => exact nofun
  | cons hxy _ ih => exact List.forall_mem_cons.mpr ⟨⟨_, hxy⟩, ih⟩

/-- **A record is accepted field by field.** -/
theorem acceptRecord_object (what : String) (aside : Bool) (hfields : (fields.map (·.1)).Nodup)
    (hkeys : (given.map (·.1)).Nodup) (h : List.Forall₂ (Fills given) fields outs) :
    acceptRecord what aside fields (.object given) = .ok outs := by
  have haccepts : ∀ m ∈ given, ∀ f, fields.lookup m.1 = some f → ∃ w, f.2 m.2 = .ok w := by
    intro m hm f hf
    obtain ⟨out, -, hfills⟩ := exists_of_forall₂ h _ (mem_of_lookup hf)
    rw [lookup_of_mem hkeys hm] at hfills
    exact ⟨out.2, hfills⟩
  obtain ⟨found, hfound, hlookup⟩ :=
    exists_acceptMembers hkeys (fun _ _ => List.lookup_nil) haccepts
  have hall : ∀ f ∈ fields,
      found.lookup f.1 = (given.lookup f.1).bind fun v => (f.2.2 v).toOption := by
    intro f hf
    rw [hlookup, accepted, lookup_of_mem hfields hf]
    rfl
  rw [acceptRecord, hfound]
  exact complete_of_fills hall h

end Record

/-! ## Values that are their own normal form -/

section NormalForms

variable (aside : Bool)

@[simp] theorem acceptAt_text (s : String) :
    Schema.text.acceptAt aside (.text s) = .ok (.text s) := rfl

@[simp] theorem acceptAt_natural (word : String) (n : Nat) :
    (Schema.natural word).acceptAt aside (.nat n) = .ok (.nat n) := by
  rw [nat, acceptAt_natural_eq, if_neg (by omega)]

theorem acceptAt_choice {names : List String} {s : String} (h : s ∈ names) :
    (Schema.choice names).acceptAt aside (.text s) = .ok (.text s) :=
  if_pos h

theorem acceptAt_dictionary {ms : List (String × Json)} (h : (Json.object ms).sorted = .object ms) :
    Schema.dictionary.acceptAt aside (.object ms) = .ok (.object ms) :=
  congrArg Except.ok h

/-- A list of normal forms is a normal form. -/
theorem acceptAt_list {item : Schema} {vs : List Json}
    (h : ∀ v ∈ vs, item.acceptAt aside v = .ok v) :
    (Schema.list item).acceptAt aside (.list vs) = .ok (.list vs) := by
  rw [acceptAt_list_eq, mapM_of_forall₂ (List.forall₂_same.mpr h)]
  rfl

theorem acceptAt_map {α : Type} {item : Schema} {f : α → Json}
    (h : ∀ x, item.acceptAt aside (f x) = .ok (f x)) (xs : List α) :
    (Schema.list item).acceptAt aside (.list (xs.map f)) = .ok (.list (xs.map f)) :=
  acceptAt_list aside (List.forall_mem_map.mpr fun x _ => h x)

@[simp] theorem acceptAt_texts (texts : List String) :
    (Schema.list .text).acceptAt aside (.list (texts.map .text)) =
      .ok (.list (texts.map .text)) :=
  acceptAt_map aside (fun _ => rfl) texts

theorem acceptFields_keys (fields : List (String × Absent × Schema)) :
    (Schema.acceptFields aside fields).map (·.1) = fields.map (·.1) := by
  induction fields with
  | nil => rfl
  | cons f fields ih =>
    obtain ⟨key, absent, form⟩ := f
    exact congrArg (key :: ·) ih

theorem acceptAt_record {what : String} {fields : List (String × Absent × Schema)}
    {given outs : List (String × Json)} (hfields : (fields.map (·.1)).Nodup)
    (hkeys : (given.map (·.1)).Nodup)
    (h : List.Forall₂ (Fills given) (Schema.acceptFields aside fields) outs) :
    (Schema.record what fields).acceptAt aside (.object given) = .ok (.object outs) := by
  rw [← acceptFields_keys aside] at hfields
  rw [acceptAt_record_eq, acceptRecord_object what aside hfields hkeys h]
  rfl

theorem lookup_acceptKinds {kind what : String} {fields : List (String × Absent × Schema)}
    {kinds : List (String × Option (String × List (String × Absent × Schema)))}
    (h : kinds.lookup kind = some (some (what, fields))) :
    (Schema.acceptKinds kinds).lookup kind =
      some (some (what, Schema.acceptFields true fields)) := by
  induction kinds with
  | nil => cases h
  | cons k kinds ih =>
    obtain ⟨name, form⟩ := k
    rw [List.lookup_cons] at h
    split at h
    · next heq =>
      cases h
      rw [Schema.acceptKinds, List.lookup_cons, heq]
    · next hne =>
      obtain - | ⟨_, _⟩ := form <;>
      · rw [Schema.acceptKinds, List.lookup_cons, hne]
        exact ih h

theorem splitTag_of_forall_ne {names : List String} {tag : String} {rest : List (String × Json)}
    (h : ∀ m ∈ rest, m.1 ≠ tag) (kind : Option String) (done : List (String × Json)) :
    splitTag names tag (kind, done) rest = .ok (kind, done ++ rest) := by
  induction rest generalizing done with
  | nil => simp [splitTag]
  | cons m rest ih =>
    obtain ⟨hm, hrest⟩ := List.forall_mem_cons.mp h
    rw [splitTag, if_neg hm, ih hrest, List.append_assoc, List.singleton_append]

end NormalForms

/-! ## Taking a normal form apart -/

@[simp] theorem asText_text (s : String) : (Json.text s).asText = s := rfl

@[simp] theorem asNat_nat (n : Nat) : (Json.nat n).asNat = n := rfl

@[simp] theorem asFlag_flag (b : Bool) : (Json.flag b).asFlag = b := rfl

@[simp] theorem asList_list (vs : List Json) : (Json.list vs).asList = vs := rfl

@[simp] theorem asMembers_object (ms : List (String × Json)) : (Json.object ms).asMembers = ms :=
  rfl

theorem field_object (ms : List (String × Json)) (key : String) :
    (Json.object ms).field key = (ms.reverse.lookup key).getD .null := rfl

end ShellPreview.Json
