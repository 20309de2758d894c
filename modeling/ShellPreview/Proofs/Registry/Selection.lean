import Mathlib.Data.List.Find
import Mathlib.Data.List.Infix
import Mathlib.Data.List.Nodup
import ShellPreview.Proofs.Text.Segments
import ShellPreview.Registry
/-!
# Which package manager a command selects

Single spaces divide a command into pieces, of which some may be empty
(`pieces`). A manager leads a command if its word is the first of several
pieces (`leads_iff`), and serves it if its word is a piece that is not the
last one (`serves_iff`). So the manager of a command is found by looking up
pieces in the table, and the order of the table counts for nothing when a
manager leads the command (`managerFor_by_pieces`).
-/

namespace ShellPreview

namespace Text

variable {segment rest cs w : List Char}

/-- What stands between single spaces. -/
def pieces (cs : List Char) : List (List Char) :=
  cs.splitOn ' '

/-- The character by which pieces are divided. -/
def isSpace (c : Char) : Bool :=
  c == ' '

theorem isSpace_eq_false_of_not_mem (hw : ' ' ∉ w) : ∀ c ∈ w, isSpace c = false := by
  intro c hc
  refine beq_false_of_ne ?_
  rintro rfl
  exact hw hc

theorem pieces_segment (hsegment : ∀ c ∈ segment, isSpace c = false) :
    pieces segment = [segment] :=
  List.splitOnP_eq_singleton hsegment

theorem pieces_segment_cons (hsegment : ∀ c ∈ segment, isSpace c = false) (cs : List Char) :
    pieces (segment ++ ' ' :: cs) = segment :: pieces cs :=
  List.splitOnP_append_cons_of_forall_mem hsegment ' ' rfl cs

/-- A space divides off a piece that is not the last one. -/
theorem dropLast_pieces_segment_cons (hsegment : ∀ c ∈ segment, isSpace c = false)
    (cs : List Char) :
    (pieces (segment ++ ' ' :: cs)).dropLast = segment :: (pieces cs).dropLast := by
  have hpieces : pieces cs ≠ [] := List.splitOnP_ne_nil _ cs
  rw [pieces_segment_cons hsegment, List.dropLast_cons_of_ne_nil hpieces]

/-- Only one piece stands in front of a space. -/
theorem prefix_segment_cons_iff (hw : ' ' ∉ w) (hsegment : ∀ c ∈ segment, isSpace c = false) :
    w ++ [' '] <+: segment ++ ' ' :: cs ↔ w = segment := by
  constructor
  · rintro ⟨rest, hrest⟩
    have hstop : ∀ cs, AtStop isSpace (' ' :: cs) := atStop_cons rfl
    have hfront := takeWhile_segment (isSpace_eq_false_of_not_mem hw) (hstop rest)
    rw [List.append_assoc, List.singleton_append] at hrest
    rw [hrest, takeWhile_segment hsegment (hstop cs)] at hfront
    exact hfront.symm
  · rintro rfl
    exact ⟨cs, List.append_assoc w [' '] cs⟩

/-- A text without spaces has no part with one. -/
theorem not_infix_segment (hsegment : ∀ c ∈ segment, isSpace c = false) (hspace : ' ' ∈ w) :
    ¬w <:+: segment := by
  intro hpart
  have hmem := hsegment ' ' (hpart.subset hspace)
  cases hmem

/-- What begins with a space stands behind the first space, or further on. -/
theorem infix_segment_cons_iff (hsegment : ∀ c ∈ segment, isSpace c = false) :
    ' ' :: w <:+: segment ++ ' ' :: cs ↔ w <+: cs ∨ ' ' :: w <:+: cs := by
  induction segment with
  | nil => rw [List.nil_append, List.infix_cons_iff, List.cons_prefix_cons, and_iff_right rfl]
  | cons c segment ih =>
    obtain ⟨hc, hsegment⟩ := List.forall_mem_cons.mp hsegment
    rw [List.cons_append, List.infix_cons_iff, List.cons_prefix_cons, ih hsegment]
    refine or_iff_right ?_
    rintro ⟨rfl, -⟩
    cases hc

/-- **A text begins with a piece and a space** if it is the first of
several pieces. -/
theorem prefix_iff_head?_pieces (hw : ' ' ∉ w) :
    w ++ [' '] <+: cs ↔ (pieces cs).dropLast.head? = some w := by
  induction cs using segment_induction isSpace with
  | last segment hsegment =>
    rw [pieces_segment hsegment]
    refine iff_of_false (fun hfront => ?_) nofun
    exact not_infix_segment hsegment (by simp) hfront.isInfix
  | more segment c cs hsegment hc ih =>
    obtain rfl := beq_iff_eq.mp hc
    rw [prefix_segment_cons_iff hw hsegment, dropLast_pieces_segment_cons hsegment,
      List.head?_cons, Option.some_inj, eq_comm]

/-- **A piece stands between spaces, or in front of the first one,** if it
is not the last one. -/
theorem mem_dropLast_pieces_iff (hw : ' ' ∉ w) :
    w ∈ (pieces cs).dropLast ↔ w ++ [' '] <+: cs ∨ ' ' :: (w ++ [' ']) <:+: cs := by
  induction cs using segment_induction isSpace with
  | last segment hsegment =>
    rw [pieces_segment hsegment]
    refine iff_of_false nofun ?_
    rintro (hfront | hpart)
    · exact not_infix_segment hsegment (by simp) hfront.isInfix
    · exact not_infix_segment hsegment (by simp) hpart
  | more segment c cs hsegment hc ih =>
    obtain rfl := beq_iff_eq.mp hc
    rw [dropLast_pieces_segment_cons hsegment, List.mem_cons, ih,
      prefix_segment_cons_iff hw hsegment, infix_segment_cons_iff hsegment]

end Text

namespace Manager

variable {m : Manager} {command : String}

theorem leads_iff_begins :
    m.leads command = true ↔ m.token.toList ++ [' '] <+: command.toList := by
  rw [leads, Text.begins_iff, String.toList_append]
  rfl

theorem serves_iff_stands : m.serves command = true ↔
    m.token.toList ++ [' '] <+: command.toList ∨
      ' ' :: (m.token.toList ++ [' ']) <:+: command.toList := by
  rw [serves, Bool.or_eq_true, leads_iff_begins, Text.holds_iff, String.toList_append,
    String.toList_append, List.append_assoc]
  rfl

/-- **A manager leads a command** whose first piece of several is its
word, -/
theorem leads_iff (h : ' ' ∉ m.token.toList) :
    m.leads command = true ↔
      (Text.pieces command.toList).dropLast.head? = some m.token.toList := by
  rw [leads_iff_begins, Text.prefix_iff_head?_pieces h]

/-- and **serves one** of which its word is a piece, but not only the last
one. -/
theorem serves_iff (h : ' ' ∉ m.token.toList) :
    m.serves command = true ↔ m.token.toList ∈ (Text.pieces command.toList).dropLast := by
  rw [serves_iff_stands, Text.mem_dropLast_pieces_iff h]

end Manager

namespace Registry

variable {r : Registry} {command : String} {m : Installer}

/-- No manager of the tables has a word with a space. -/
def Spaceless (r : Registry) : Prop :=
  ∀ m ∈ r.managers, ' ' ∉ m.token.toList

/-- There are inner pieces if there is more than one piece. -/
theorem head?_dropLast_eq_some_iff {α : Type} {l : List α} {a : α} :
    l.dropLast.head? = some a ↔ 2 ≤ l.length ∧ l.head? = some a := by
  rcases l with - | ⟨b, - | ⟨c, l⟩⟩
  · simp
  · simp
  · simp

theorem managerFor_eq_none_iff :
    r.managerFor command = none ↔ ∀ m ∈ r.managers, m.serves command = false := by
  unfold managerFor
  rw [Option.or_eq_none_iff, List.find?_eq_none, List.find?_eq_none]
  constructor
  · rintro ⟨-, hnone⟩ m hm
    exact Bool.eq_false_iff.mpr (hnone m hm)
  · intro hnone
    refine ⟨fun m hm hleads => ?_, fun m hm hserves => ?_⟩
    · have hserves := hnone m hm
      rw [Manager.serves, hleads] at hserves
      cases hserves
    · rw [hnone m hm] at hserves
      cases hserves

/-- The manager of a command is one of the tables that serves it. -/
theorem serves_of_managerFor (h : r.managerFor command = some m) :
    m ∈ r.managers ∧ m.serves command = true := by
  unfold managerFor at h
  rcases Option.or_eq_some_iff.mp h with hlead | ⟨-, hserve⟩
  · have hleads : m.leads command = true :=
      List.find?_some (p := fun m : Installer => m.leads command) hlead
    exact ⟨List.mem_of_find?_eq_some hlead, by rw [Manager.serves, hleads, Bool.true_or]⟩
  · exact ⟨List.mem_of_find?_eq_some hserve,
      List.find?_some (p := fun m : Installer => m.serves command) hserve⟩

/-- **If a manager leads the command, it is the one,** where no two managers
have one word. -/
theorem managerFor_of_leads (h : r.Spaceless) (hnodup : (r.managers.map fun m => m.token).Nodup)
    (hm : m ∈ r.managers) (hleads : m.leads command = true) : r.managerFor command = some m := by
  have hsome : (r.managers.find? fun m => m.leads command).isSome = true :=
    List.find?_isSome.mpr ⟨m, hm, hleads⟩
  obtain ⟨first, hfirst⟩ := Option.isSome_iff_exists.mp hsome
  have hmem : first ∈ r.managers := List.mem_of_find?_eq_some hfirst
  have hword : m.token = first.token := by
    have hother : first.leads command = true :=
      List.find?_some (p := fun m : Installer => m.leads command) hfirst
    rw [Manager.leads_iff (h first hmem)] at hother
    rw [(Manager.leads_iff (h m hm)).mp hleads, Option.some_inj] at hother
    exact String.toList_inj.mp hother
  obtain rfl := List.inj_on_of_nodup_map hnodup hm hmem hword
  rw [managerFor, hfirst]
  rfl

/-- The manager is looked up by the pieces. -/
theorem managerFor_eq_find? (h : r.Spaceless) (command : String) :
    r.managerFor command =
      if 2 ≤ (Text.pieces command.toList).length ∧
          ∃ m ∈ r.managers, (Text.pieces command.toList).head? = some m.token.toList then
        r.managers.find? fun m => (Text.pieces command.toList).head? = some m.token.toList
      else r.managers.find? fun m => m.token.toList ∈ (Text.pieces command.toList).dropLast := by
  have hleads : ∀ m ∈ r.managers, m.leads command = true ↔
      2 ≤ (Text.pieces command.toList).length ∧
        (Text.pieces command.toList).head? = some m.token.toList := fun m hm => by
    rw [Manager.leads_iff (h m hm), head?_dropLast_eq_some_iff]
  have hserves : (r.managers.find? fun m => m.serves command) =
      r.managers.find? fun m => m.token.toList ∈ (Text.pieces command.toList).dropLast :=
    List.find?_congr fun m hm => by
      rw [Bool.eq_iff_iff, Manager.serves_iff (h m hm), decide_eq_true_iff]
  split
  · next hled =>
    obtain ⟨hseveral, m, hm, hhead⟩ := hled
    have hfind : (r.managers.find? fun m => m.leads command) =
        r.managers.find? fun m => (Text.pieces command.toList).head? = some m.token.toList :=
      List.find?_congr fun m hm => by
        rw [Bool.eq_iff_iff, hleads m hm, decide_eq_true_iff, and_iff_right hseveral]
    have hsome : (r.managers.find? fun m => m.leads command).isSome = true :=
      List.find?_isSome.mpr ⟨m, hm, (hleads m hm).mpr ⟨hseveral, hhead⟩⟩
    rw [managerFor, Option.or_of_isSome hsome, hfind]
  · next hnone =>
    have hfind : (r.managers.find? fun m => m.leads command) = none := by
      refine List.find?_eq_none.mpr fun m hm hl => hnone ?_
      obtain ⟨hseveral, hhead⟩ := (hleads m hm).mp hl
      exact ⟨hseveral, m, hm, hhead⟩
    rw [managerFor, hfind, Option.none_or, hserves]

/-- **The pieces of a command select its manager**, in tables without a
space in the word of a manager. A manager serves a command if its word is a
piece but the last one. The manager of a command is the first one in the
table whose word is the first of several pieces, if there is one; else it
is the first one whose word is a piece but the last. Where no two managers
have one word and one of them leads the command, any order of the table
gives the same manager. -/
theorem managerFor_by_pieces (r : Registry) (h : ∀ m ∈ r.managers, ' ' ∉ m.token.toList)
    (command : String) :
    (∀ m ∈ r.managers, m.serves command = true ↔
      m.token.toList ∈ (Text.pieces command.toList).dropLast) ∧
    (r.managerFor command =
      if 2 ≤ (Text.pieces command.toList).length ∧
          ∃ m ∈ r.managers, (Text.pieces command.toList).head? = some m.token.toList then
        r.managers.find? fun m => (Text.pieces command.toList).head? = some m.token.toList
      else r.managers.find? fun m => m.token.toList ∈ (Text.pieces command.toList).dropLast) ∧
    (r.managerFor command = none ↔ ∀ m ∈ r.managers, m.serves command = false) ∧
    ((r.managers.map fun m => m.token).Nodup → (∃ m ∈ r.managers, m.leads command = true) →
      ∀ s : Registry, s.managers.Perm r.managers →
        (s.managerFor command).isSome = true ∧ s.managerFor command = r.managerFor command) := by
  refine ⟨fun m hm => Manager.serves_iff (h m hm), managerFor_eq_find? h command,
    managerFor_eq_none_iff, ?_⟩
  rintro hnodup ⟨m, hm, hleads⟩ s hperm
  have hspaceless : s.Spaceless := fun m hm => h m (hperm.mem_iff.mp hm)
  have hother : (s.managers.map fun m => m.token).Nodup :=
    (hperm.map fun m => m.token).nodup_iff.mpr hnodup
  have hs := managerFor_of_leads hspaceless hother (hperm.mem_iff.mpr hm) hleads
  rw [hs, managerFor_of_leads h hnodup hm hleads]
  exact ⟨rfl, rfl⟩

/-- A manager that finds no packages. -/
def idle (token : String) : Installer :=
  ⟨⟨token, token, "", "", ""⟩, ⟨.unit, 0⟩⟩

/-- The manager in front is selected from a table in which it comes last,
and from one in which it comes first. -/
theorem managerFor_by_pieces_pnpm :
    ((⟨[idle "npm", idle "pnpm"], []⟩ : Registry).managerFor "pnpm run npm install").map
        (fun m => m.token) = some "pnpm" ∧
      (⟨[idle "pnpm", idle "npm"], []⟩ : Registry).managerFor "pnpm run npm install" =
        (⟨[idle "npm", idle "pnpm"], []⟩ : Registry).managerFor "pnpm run npm install" := by
  have hspaceless : ∀ m ∈ [idle "npm", idle "pnpm"], ' ' ∉ m.token.toList := by decide
  have hnodup : ([idle "npm", idle "pnpm"].map fun m => m.token).Nodup := by decide
  have hleads : ∃ m ∈ [idle "npm", idle "pnpm"], m.leads "pnpm run npm install" = true := by
    decide
  obtain ⟨-, -, -, horder⟩ := managerFor_by_pieces ⟨[idle "npm", idle "pnpm"], []⟩ hspaceless
    "pnpm run npm install"
  have hswap := horder hnodup hleads ⟨[idle "pnpm", idle "npm"], []⟩ (List.Perm.swap _ _ _)
  exact ⟨by decide, hswap.2⟩

end Registry

end ShellPreview
