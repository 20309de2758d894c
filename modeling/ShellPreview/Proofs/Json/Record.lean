import ShellPreview.Json.Schema.Text
import ShellPreview.Proofs.Json.Skipping
/-!
# Reading a record

A text is read with a schema in one pass, a value is accepted by it as a
tree. `Agrees` says that, whatever way an accepted value is written,
reading gives its normal form. The readers of texts, numbers and choices
agree, and so does that of a record whose fields have readers that do.
-/

namespace ShellPreview.Json

/-- The reader gives what the acceptor gives for every value that does not
nest too deep. -/
def Agrees (room : Nat) (reader : List Char → Reading Json) (accept : Json → Except Cause Json) :
    Prop :=
  ∀ v w, Nests room v → accept v = .ok w → Reads reader v w

/-- The same fields, with readers that agree with the acceptors. -/
def FieldsAgree (room : Nat) (readers : FieldsOf (List Char → Reading Json))
    (acceptors : FieldsOf (Json → Except Cause Json)) : Prop :=
  List.Forall₂ (fun f g => f.1 = g.1 ∧ f.2.1 = g.2.1 ∧ Agrees room f.2.2 g.2.2) readers acceptors

/-! ## Texts, truth values and numbers -/

section Simple

variable {bs cs rest : List Char}

theorem readPlainText_append (hbs : Blanks bs) (expected : String) (cs : List Char) :
    readPlainText expected (bs ++ cs) = readPlainText expected cs := by
  unfold readPlainText
  rw [skipBlanks_append hbs]

theorem reads_readPlainText (expected s : String) : Reads (readPlainText expected) (.text s) s := by
  intro bs cs rest hbs hcs _
  rw [readPlainText_append hbs]
  cases hcs with
  | text h =>
    rw [List.cons_append, List.append_assoc, readPlainText, skipBlanks_cons (by decide)]
    simp [h.readText_eq, Except.map]

theorem reads_readName {names : List String} {s : String} (expected : String) (h : s ∈ names) :
    Reads (readName expected names) (.text s) s := by
  intro bs cs rest hbs hcs hrest
  simp [readName, reads_readPlainText expected s hbs hcs hrest, h]

theorem reads_readFlag (b : Bool) : Reads readFlag (.flag b) (.flag b) := by
  intro bs cs rest hbs hcs _
  cases hcs
  rw [readFlag, skipBlanks_append hbs]
  cases b <;> rfl

theorem reads_readNatural {i : Int} (word : String) (h : ¬ i < 0) :
    Reads (readNatural word) (.number (.whole i)) (.number (.whole i)) := by
  intro bs cs rest hbs hcs hrest
  rw [readNatural, skipBlanks_append hbs]
  cases hcs with
  | number hread =>
    have hall := readNumeral_append hrest hread
    obtain ⟨c, ds, rfl, hc⟩ := head_of_readNumeral hread
    rw [List.cons_append] at hall ⊢
    rw [skipBlanks_cons hc.blank]
    simp [hc.test, hall, h]

end Simple

/-- What was mapped to a result is a result. -/
theorem exists_of_map_eq_ok {ε α β : Type} {f : α → β} {e : Except ε α} {y : β}
    (h : e.map f = .ok y) : ∃ x, e = .ok x ∧ f x = y := by
  cases e with
  | error _ => cases h
  | ok x => exact ⟨x, rfl, Except.ok.inj h⟩

/-! ## Choices -/

theorem eq_null_of_acceptNothing {v : Json} (h : acceptNothing false v = .ok ()) : v = .null := by
  unfold acceptNothing at h
  split at h
  · rfl
  · cases h
  · cases h

theorem readChoice_append {bs : List Char} (hbs : Blanks bs) (room : Nat) (names : List String)
    (cs : List Char) : readChoice room names (bs ++ cs) = readChoice room names cs := by
  unfold readChoice
  rw [skipBlanks_append hbs]

theorem readNameEnd_eq {bs bs' bs'' : List Char} (hbs : Blanks bs) (hbs' : Blanks bs')
    (hbs'' : Blanks bs'') (rest : List Char) :
    readNameEnd (bs ++ ':' :: (bs' ++ 'n' :: 'u' :: 'l' :: 'l' :: (bs'' ++ '\x7d' :: rest))) =
      .ok rest := by
  have hnull : readNothing (bs' ++ 'n' :: 'u' :: 'l' :: 'l' :: (bs'' ++ '\x7d' :: rest)) =
      .ok (bs'' ++ '\x7d' :: rest) := by
    rw [readNothing, skipBlanks_append hbs', skipBlanks_cons (by decide)]
    rfl
  simp only [readNameEnd, readColon_eq hbs, hnull, skipBlanks_append hbs'',
    skipBlanks_cons (c := '\x7d') (by decide)]

/-- A name as the only key of an object. -/
theorem readChoice_object {names : List String} {s : String} {cs : List Char} (h : s ∈ names)
    (hcs : SpellsMembers true [(s, .null)] cs) (room : Nat) (rest : List Char) :
    readChoice (room + 1) names ('\x7b' :: (cs ++ rest)) = .ok (.text s, rest) := by
  cases hcs with
  | @member _ sep _ ks bs bs' _ ds _ _ hsep hkey hbs hbs' hnull hms =>
    cases hnull
    obtain hsep | - := hsep
    cases hms with
    | @close _ bs'' hbs'' =>
      have hend := readNameEnd_eq hbs hbs' hbs'' rest
      have hcolon : Ends (':' :: (bs' ++ ['n', 'u', 'l', 'l'] ++ bs'' ++ '\x7d' :: rest)) :=
        ends_cons _ (by decide)
      have hname := reads_readName "variant identifier" h hsep (.text hkey)
        (ends_blanks_append hbs hcolon)
      simp only [List.append_assoc, List.cons_append, List.nil_append] at hname hend ⊢
      rw [readChoice, skipBlanks_cons (by decide)]
      simp [hname, hend, Except.map]

theorem agrees_readChoice (room : Nat) (names : List String) :
    Agrees room (readChoice room names) (acceptChoice false names) := by
  intro v w hv hw bs cs rest hbs hcs hrest
  rw [readChoice_append hbs]
  unfold acceptChoice at hw
  split at hw
  · next s =>
    split at hw
    · next hs =>
      cases hw
      have hname := reads_readName "variant identifier" hs blanks_nil hcs hrest
      cases hcs with
      | text h =>
        simp only [List.cons_append, List.nil_append, List.append_assoc] at hname ⊢
        rw [readChoice, skipBlanks_cons (by decide)]
        simp [hname, Except.map]
    · cases hw
  · next s v =>
    split at hw
    · next hs =>
      obtain ⟨_, hnothing, rfl⟩ := exists_of_map_eq_ok hw
      obtain rfl := eq_null_of_acceptNothing hnothing
      obtain - | - | - | - | - | - := hv
      cases hcs with
      | object h =>
        rw [List.cons_append]
        exact readChoice_object hs h _ _
    · cases hw
  · cases hw
  · cases hw

/-! ## Records -/

/-- What a member does to those in front of it when some belong to
fields. -/
def readField (fields : FieldsOf (List Char → Reading Json)) (done : List (String × Json))
    (key : String) (r : List Char) : Reading (List (String × Json)) :=
  match fields.lookup key with
  | none =>
    match readColon r with
    | .error stop => .error stop
    | .ok r => (skipValue r).map fun r => (done, r)
  | some (_, form) =>
    if (done.lookup key).isSome then .error (.loose (.duplicateField key) r)
    else
      match readColon r with
      | .error stop => .error stop
      | .ok r => (form r).map fun (v, r) => (done ++ [(key, v)], r)

theorem readRecordMembers_eq (fields : FieldsOf (List Char → Reading Json)) (cs : List Char) :
    readRecordMembers fields cs =
      match readMembers (readField fields) (cs.length + 1) true [] cs with
      | .error stop => .error stop
      | .ok (found, r) => loosely r (complete found fields) :=
  rfl

section Records

variable {room : Nat} {key : String} {absent : Absent} {cs : List Char}
  {reader : List Char → Reading Json} {accept : Json → Except Cause Json}
  {readers : FieldsOf (List Char → Reading Json)} {acceptors : FieldsOf (Json → Except Cause Json)}

namespace FieldsAgree

theorem lookup_eq_none (h : FieldsAgree room readers acceptors)
    (hkey : acceptors.lookup key = none) : readers.lookup key = none := by
  induction h with
  | nil => rfl
  | @cons f g readers acceptors hfg _ ih =>
    obtain ⟨k, absent, reader⟩ := f
    obtain ⟨rfl, -⟩ := hfg
    rw [List.lookup_cons] at hkey ⊢
    split at hkey
    · cases hkey
    · next hne => simpa [hne] using ih hkey

theorem lookup_eq_some (h : FieldsAgree room readers acceptors)
    (hkey : acceptors.lookup key = some (absent, accept)) :
    ∃ reader, readers.lookup key = some (absent, reader) ∧ Agrees room reader accept := by
  induction h with
  | nil => cases hkey
  | @cons f g readers acceptors hfg _ ih =>
    obtain ⟨k, absent, reader⟩ := f
    obtain ⟨k', absent', accept'⟩ := g
    obtain ⟨rfl, rfl, hagrees⟩ := hfg
    rw [List.lookup_cons] at hkey ⊢
    split at hkey
    · next heq =>
      cases hkey
      exact ⟨reader, by simp [heq], hagrees⟩
    · next hne => simpa [hne] using ih hkey

theorem complete_eq (h : FieldsAgree room readers acceptors) (found : List (String × Json)) :
    complete found readers = complete found acceptors := by
  induction h with
  | nil => rfl
  | @cons f g readers acceptors hfg _ ih =>
    obtain ⟨k, absent, reader⟩ := f
    obtain ⟨k', absent', accept⟩ := g
    obtain ⟨rfl, rfl, -⟩ := hfg
    simp only [complete, ih]

theorem completeList_eq (h : FieldsAgree room readers acceptors) (what : String) (all index : Nat) :
    completeList what all index readers = completeList what all index acceptors := by
  induction h generalizing index with
  | nil => rfl
  | @cons f g readers acceptors hfg _ ih =>
    obtain ⟨k, absent, reader⟩ := f
    obtain ⟨k', absent', accept⟩ := g
    obtain ⟨rfl, rfl, -⟩ := hfg
    cases absent <;> simp [completeList, ih]

end FieldsAgree

theorem readsBehind_readField {v w : Json} {done : List (String × Json)}
    (hlookup : readers.lookup key = some (absent, reader)) (hdone : done.lookup key = none)
    (h : Reads reader v w) : ReadsBehind (readField readers done key) v (done ++ [(key, w)]) := by
  intro bs bs' cs rest hbs hbs' hcs hrest
  simp [readField, hlookup, hdone, readColon_eq hbs, h hbs' hcs hrest, Except.map]

/-- A member that belongs to no field changes nothing, whatever its value. -/
theorem readsBehind_readField_none (hlookup : readers.lookup key = none) (v : Json)
    (done : List (String × Json)) : ReadsBehind (readField readers done key) v done := by
  intro bs bs' cs rest hbs hbs' hcs hrest
  simp [readField, hlookup, readColon_eq hbs, skipValue_eq hbs' hcs hrest, Except.map]

/-- What the members of a value are accepted as, one step each. -/
theorem steps_readField (h : FieldsAgree room readers acceptors)
    {ms done found : List (String × Json)} (hms : ∀ m ∈ ms, Nests room m.2)
    (hfound : acceptMembers acceptors done ms = .ok found) :
    Steps (readField readers) done ms found := by
  induction ms generalizing done with
  | nil =>
    obtain rfl := Except.ok.inj hfound
    exact .nil _
  | cons m ms ih =>
    obtain ⟨hm, hms⟩ := List.forall_mem_cons.mp hms
    rw [acceptMembers] at hfound
    split at hfound
    · next hnone =>
      exact .cons (readsBehind_readField_none (h.lookup_eq_none hnone) _ _) (ih hms hfound)
    · next hsome =>
      obtain ⟨reader, hreader, hagrees⟩ := h.lookup_eq_some hsome
      split at hfound
      · cases hfound
      · next hdone =>
        split at hfound
        · cases hfound
        · next w hw =>
          have hnew := Option.not_isSome_iff_eq_none.mp hdone
          exact .cons (readsBehind_readField hreader hnew (hagrees _ _ hm hw)) (ih hms hfound)

/-- The items of a list are read as the values of the fields. -/
theorem readInOrder_eq (h : FieldsAgree room readers acceptors) {vs : List Json}
    {outs : List (String × Json)} {what : String} {all total index : Nat} {first : Bool}
    (hvs : ∀ v ∈ vs, Nests room v)
    (houts : acceptInOrder what false all total index acceptors vs = .ok outs)
    (hcs : SpellsItems first vs cs) (rest : List Char) :
    ∃ r, readInOrder what all index first readers (cs ++ rest) = .ok (outs, r) ∧
      closeList r = .ok rest := by
  induction h generalizing vs outs index first cs with
  | nil =>
    cases vs with
    | nil =>
      cases houts
      cases hcs with
      | @close _ bs hbs =>
        refine ⟨bs ++ [']'] ++ rest, rfl, ?_⟩
        rw [closeList, List.append_assoc, skipBlanks_append hbs]
        rfl
    | cons v vs => cases houts
  | @cons f g readers acceptors hfg hfields ih =>
    obtain ⟨k, absent, reader⟩ := f
    obtain ⟨k', absent', accept⟩ := g
    obtain ⟨rfl, rfl, hagrees⟩ := hfg
    cases vs with
    | nil =>
      -- a list that is too short leaves the last fields to what stands for them
      have hall : FieldsAgree room ((k, absent, reader) :: readers)
          ((k, absent, accept) :: acceptors) := .cons ⟨rfl, rfl, hagrees⟩ hfields
      simp only [acceptInOrder] at houts
      rw [← hall.completeList_eq] at houts
      cases hcs with
      | close hbs =>
        refine ⟨']' :: rest, ?_, closeList_eq rest⟩
        rw [List.append_assoc, List.singleton_append, readInOrder, nextItem_close hbs]
        simp only [houts, loosely]
    | cons v vs =>
      obtain ⟨hv, hvs⟩ := List.forall_mem_cons.mp hvs
      rw [acceptInOrder] at houts
      split at houts
      · cases houts
      · next w hw =>
        obtain ⟨ws, hws, rfl⟩ := exists_of_map_eq_ok houts
        cases hcs with
        | @item _ sep cs ds _ _ hsep hcs hds =>
          obtain ⟨r, hr, hclose⟩ := ih hvs hws hds
          refine ⟨r, ?_, hclose⟩
          -- the blanks of the separator are gone when the reader of the field starts
          have hitem := hagrees v w hv hw blanks_nil hcs (hds.ends rest)
          obtain ⟨c, r', rfl, hblank, -, hne, -⟩ := hcs.head
          have hnext := nextItem_item hsep hblank hne (r' ++ (ds ++ rest))
          simp only [List.append_assoc, List.cons_append, List.nil_append] at hitem hnext ⊢
          simp only [readInOrder, hnext, hitem, hr]
          rfl

theorem readRecord_list (what : String) (fields : Nat → FieldsOf (List Char → Reading Json))
    {bs : List Char} (hbs : Blanks bs) (r : List Char) :
    readRecord what (room + 1) fields (bs ++ '[' :: r) =
      (finishList (readInOrder what (fields room).length 0 true (fields room) r)).map
        fun (ms, r) => (.object ms, r) := by
  unfold readRecord
  rw [skipBlanks_append hbs]
  rfl

theorem readRecord_object (what : String) (fields : Nat → FieldsOf (List Char → Reading Json))
    {bs : List Char} (hbs : Blanks bs) (r : List Char) :
    readRecord what (room + 1) fields (bs ++ '\x7b' :: r) =
      (finishObject (readRecordMembers (fields room) r)).map fun (ms, r) => (.object ms, r) := by
  unfold readRecord
  rw [skipBlanks_append hbs]
  rfl

/-- **Reading a record agrees with accepting it**, written as an object or
as a list. -/
theorem agrees_readRecord {what : String} {fields : Nat → FieldsOf (List Char → Reading Json)}
    (h : ∀ room, FieldsAgree room (fields room) acceptors) (room : Nat) :
    Agrees room (readRecord what room fields)
      (fun v => (acceptRecord what false acceptors v).map .object) := by
  intro v w hv hw bs cs rest hbs hcs hrest
  obtain ⟨outs, houts, rfl⟩ := exists_of_map_eq_ok hw
  unfold acceptRecord at houts
  split at houts
  · next ms =>
    split at houts
    · cases houts
    · next found hfound =>
      obtain - | - | - | - | - | hms := hv
      obtain - | - | - | - | - | hcs := hcs
      have hsteps := steps_readField (h _) hms hfound
      rw [List.cons_append, readRecord_object _ _ hbs, readRecordMembers_eq,
        readMembers_whole hsteps hcs]
      simp only [(h _).complete_eq, houts, loosely, finishObject_ok]
      rfl
  · next vs =>
    obtain - | - | - | - | @⟨room, _, hvs⟩ | - := hv
    obtain - | - | - | - | hcs | - := hcs
    have hlength := (h room).length_eq
    obtain ⟨r, hr, hclose⟩ := readInOrder_eq (h _) hvs houts hcs rest
    rw [List.cons_append, readRecord_list _ _ hbs, hlength, hr, finishList, hclose]
    rfl
  · cases houts

end Records

end ShellPreview.Json
