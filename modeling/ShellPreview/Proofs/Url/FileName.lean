import Mathlib.Data.List.TakeWhile
import ShellPreview.Proofs.Text.Segments
import ShellPreview.Proofs.Url.Segment
import ShellPreview.Url
/-!
# The name of a file

The name that is read from a URL is one component of a path: it can be put
behind any directory, and neither leaves it nor leads into another
(`fileName_isComponent`). Since the path ends at the first question mark or
hash, what is written behind one of them does not count. Here that is
carried through the reading, function by function: each cuts its part off
in front of the mark and hands on what is behind it, down to
`pathSegments`, which drops it.
-/

namespace ShellPreview

namespace Text

variable {mark : Char} {cs ext stem rest : List Char}

/-- Read from the end, what stands in front of the mark is what stands
behind the last one. -/
theorem takeWhile_reverse_of_not_mem (h : mark ∉ rest) :
    (stem ++ mark :: rest).reverse.takeWhile (· ≠ mark) = rest.reverse := by
  have hkept : ∀ c ∈ rest.reverse, decide (c ≠ mark) = true := fun c hc =>
    decide_eq_true fun heq => h (heq ▸ List.mem_reverse.mp hc)
  rw [List.reverse_append, List.reverse_cons, List.append_assoc,
    List.takeWhile_append_of_pos hkept, List.singleton_append,
    List.takeWhile_cons_of_neg (by simp), List.append_nil]

/-- Where there is a mark there is a last one. -/
theorem exists_last_of_mem (h : mark ∈ cs) :
    ∃ stem rest, cs = stem ++ mark :: rest ∧ mark ∉ rest := by
  obtain ⟨behind, front, hsplit, hnot⟩ := List.eq_append_cons_of_mem (List.mem_reverse.mpr h)
  refine ⟨front.reverse, behind.reverse, ?_, fun hmem => hnot (List.mem_reverse.mp hmem)⟩
  rw [← List.reverse_reverse cs, hsplit, List.reverse_append, List.reverse_cons,
    List.append_assoc, List.singleton_append]

/-- **What stands from the last mark on** is a mark without another one
behind it. -/
theorem fromLast_eq_some :
    fromLast mark cs = some ext ↔
      ∃ stem rest, cs = stem ++ mark :: rest ∧ mark ∉ rest ∧ ext = mark :: rest := by
  have hlast : ∀ stem rest, mark ∉ rest →
      fromLast mark (stem ++ mark :: rest) = some (mark :: rest) := by
    intro stem rest hrest
    rw [fromLast, if_pos (List.mem_append_right _ List.mem_cons_self),
      takeWhile_reverse_of_not_mem hrest, List.reverse_reverse]
  constructor
  · intro h
    by_cases hmem : mark ∈ cs
    · obtain ⟨stem, rest, rfl, hrest⟩ := exists_last_of_mem hmem
      rw [hlast stem rest hrest] at h
      exact ⟨stem, rest, rfl, hrest, (Option.some.inj h).symm⟩
    · rw [fromLast, if_neg hmem] at h
      cases h
  · rintro ⟨stem, rest, rfl, hrest, rfl⟩
    exact hlast stem rest hrest

end Text

namespace Url

variable {mark : Char} {cs more : List Char} {special file : Bool}
variable {scheme s name ext : String} {user : Option Bool}

/-! ## What a mark ends -/

theorem takeWhile_append_mark (keep : Char → Bool) (hmark : keep mark = false) :
    (cs ++ mark :: more).takeWhile keep = cs.takeWhile keep := by
  induction cs with
  | nil => rw [List.nil_append, List.takeWhile_cons_of_neg (by simp [hmark]), List.takeWhile_nil]
  | cons c cs ih => rw [List.cons_append, List.takeWhile_cons, List.takeWhile_cons, ih]

theorem dropWhile_append_mark (keep : Char → Bool) (hmark : keep mark = false) :
    (cs ++ mark :: more).dropWhile keep = cs.dropWhile keep ++ mark :: more := by
  induction cs with
  | nil => rw [List.nil_append, List.dropWhile_cons_of_neg (by simp [hmark])]; rfl
  | cons c cs ih =>
    rw [List.cons_append, List.dropWhile_cons, List.dropWhile_cons, ih]
    split <;> rfl

/-- A question mark or a hash: the path is at its end. -/
def EndsPath (c : Char) : Prop :=
  c = '?' ∨ c = '#'

theorem EndsPath.isSlash (h : EndsPath mark) : isSlash special mark = false := by
  rcases h with rfl | rfl <;> cases special <;> rfl

theorem EndsPath.isAuthorityEnd (h : EndsPath mark) : isAuthorityEnd special mark = true := by
  rcases h with rfl | rfl <;> cases special <;> rfl

/-- **A path ends at the mark.** -/
theorem pathSegments_append (h : EndsPath mark) (special file : Bool) (cs more : List Char) :
    pathSegments special file (cs ++ mark :: more) = pathSegments special file cs := by
  have hpath : (mark != '?' && mark != '#') = false := by
    rcases h with rfl | rfl <;> rfl
  rw [pathSegments, takeWhile_append_mark _ hpath, ← pathSegments]

theorem fileSegments_append (h : EndsPath mark) :
    fileSegments (cs ++ mark :: more) = fileSegments cs := by
  cases cs with
  | nil =>
    rw [List.nil_append, fileSegments.eq_2, if_neg (by simp [h.isSlash]), fileSegments.eq_1]
    exact pathSegments_append h true true [] more
  | cons c cs =>
    rw [List.cons_append, fileSegments.eq_2, fileSegments.eq_2]
    split
    · exact pathSegments_append h true true cs more
    · exact pathSegments_append h true true (c :: cs) more

/-! ## Files -/

theorem parseFileHost_append (h : EndsPath mark) :
    parseFileHost (cs ++ mark :: more) = parseFileHost cs := by
  have hend : (!isAuthorityEnd true mark) = false := by rw [h.isAuthorityEnd]; rfl
  simp only [parseFileHost, takeWhile_append_mark (fun c => !isAuthorityEnd true c) hend,
    dropWhile_append_mark (fun c => !isAuthorityEnd true c) hend,
    pathSegments_append h, fileSegments_append h]

/-- What stands behind two slashes. -/
def behindSlashes (special : Bool) : List Char → Option (List Char)
  | a :: b :: r => if isSlash special a && isSlash special b then some r else none
  | _ => none

theorem behindSlashes_append (h : EndsPath mark) :
    behindSlashes special (cs ++ mark :: more) =
      (behindSlashes special cs).map (· ++ mark :: more) := by
  match cs with
  | [] => cases more <;> simp [behindSlashes, h.isSlash]
  | [a] => simp [behindSlashes, h.isSlash]
  | a :: b :: r =>
    simp only [List.cons_append, behindSlashes]
    split <;> rfl

theorem parseFile_eq (cs : List Char) :
    parseFile cs = match behindSlashes true cs with
      | some r => parseFileHost r
      | none => some ⟨"file", false, fileSegments cs⟩ := by
  match cs with
  | [] => rfl
  | [a] => rfl
  | a :: b :: r =>
    simp only [parseFile, behindSlashes]
    split <;> rfl

theorem parseFile_append (h : EndsPath mark) : parseFile (cs ++ mark :: more) = parseFile cs := by
  rw [parseFile_eq, parseFile_eq, behindSlashes_append h]
  cases behindSlashes true cs with
  | none => simp only [Option.map_none, fileSegments_append h]
  | some r => exact parseFileHost_append h

/-! ## Other schemes -/

/-- The segments of what stands behind an authority. -/
def segmentsBehind (special : Bool) : List Char → List (List Char)
  | [] => if special then [[]] else []
  | c :: r =>
    if isSlash special c then pathSegments special false r
    else if !special && (c == '?' || c == '#') then []
    else pathSegments special false (c :: r)

theorem pathSegments_nil : pathSegments special false [] = [[]] :=
  pathSegments_of_isSegment isSegment_nil (List.forall_mem_nil _)

theorem segmentsBehind_append (h : EndsPath mark) :
    segmentsBehind special (cs ++ mark :: more) = segmentsBehind special cs := by
  have hwhole := pathSegments_append h special false cs more
  cases cs with
  | nil =>
    have hmark : (mark == '?' || mark == '#') = true := by rcases h with rfl | rfl <;> rfl
    rw [List.nil_append, segmentsBehind.eq_2, if_neg (by simp [h.isSlash]), hmark]
    cases special with
    | true => exact hwhole.trans pathSegments_nil
    | false => rfl
  | cons c cs =>
    rw [List.cons_append] at hwhole
    rw [List.cons_append, segmentsBehind.eq_2, segmentsBehind.eq_2, pathSegments_append h, hwhole]

/-- Whether an address has a host, and what stands behind the number of the
service, if there may be such an address. -/
def readAddress (special : Bool) (address : List Char) (user : Option Bool) :
    Option (Bool × List Char) :=
  let (host, service) := splitHost false address
  let bad :=
    if host.isEmpty then special || user == some true || !service.isEmpty
    else if special then !Host.isKnown host
    else !Host.isOpaque host
  match bad, dropService service with
  | true, _ => none
  | _, none => none
  | false, some behind => some (!host.isEmpty, behind)

theorem parseAuthority_eq (scheme : String) (cs : List Char) :
    parseAuthority scheme cs =
      let special := isSpecial scheme
      let (address, user) := dropUser (cs.takeWhile fun c => !isAuthorityEnd special c)
      let rest := cs.dropWhile fun c => !isAuthorityEnd special c
      if user == some false && address.isEmpty && !rest.isEmpty then none
      else (readAddress special address user).map fun (hasHost, behind) =>
        ⟨scheme, hasHost, segmentsBehind special (behind ++ rest)⟩ := by
  simp only [parseAuthority, readAddress]
  split
  · rfl
  · generalize (if List.isEmpty _ then _ else _ : Bool) = bad
    generalize dropService _ = service
    cases bad with
    | true => rfl
    | false =>
      cases service with
      | none => rfl
      | some behind =>
        dsimp only [Option.map_some]
        cases behind ++ cs.dropWhile fun c => !isAuthorityEnd (isSpecial scheme) c <;> rfl

/-- Nothing stands behind an address of which nothing is left. -/
theorem readAddress_nil :
    readAddress special [] user =
      if special || user == some true then none else some (false, []) := by
  cases special <;> rcases user with _ | _ | _ <;> rfl

/-- The last segment of the path that was read. -/
def lastSegment (url : Option Url) : Option (List Char) :=
  url.bind fun url => url.segments.getLast?

/-- **An authority is read as without the mark**, as far as the last
segment goes. With an empty name and no host the mark may make it wrong,
but then there is no path either. -/
theorem lastSegment_parseAuthority_append (h : EndsPath mark) :
    lastSegment (parseAuthority scheme (cs ++ mark :: more)) =
      lastSegment (parseAuthority scheme cs) := by
  have hend : (!isAuthorityEnd (isSpecial scheme) mark) = false := by rw [h.isAuthorityEnd]; rfl
  rw [parseAuthority_eq, parseAuthority_eq]
  simp only [takeWhile_append_mark (fun c => !isAuthorityEnd (isSpecial scheme) c) hend,
    dropWhile_append_mark (fun c => !isAuthorityEnd (isSpecial scheme) c) hend,
    ← List.append_assoc, segmentsBehind_append h]
  generalize dropUser _ = split
  obtain ⟨address, user⟩ := split
  generalize cs.dropWhile _ = rest
  cases hlost : user == some false && address.isEmpty with
  | false => rfl
  | true =>
    obtain ⟨huser, haddress⟩ := Bool.and_eq_true_iff.mp hlost
    obtain rfl := List.isEmpty_iff.mp haddress
    cases rest with
    | cons c rest => rfl
    | nil =>
      rw [readAddress_nil, beq_iff_eq.mp huser]
      cases isSpecial scheme <;> rfl

/-! ## The text of a URL -/

theorem splitScheme_append (h : EndsPath mark) :
    splitScheme (cs ++ mark :: more) =
      (splitScheme cs).map fun (scheme, r) => (scheme, r ++ mark :: more) := by
  have hmark : (mark.isAlphanum || mark == '+' || mark == '-' || mark == '.') = false := by
    rcases h with rfl | rfl <;> rfl
  unfold splitScheme
  dsimp only
  rw [dropWhile_append_mark _ hmark, takeWhile_append_mark _ hmark]
  cases hrest : cs.dropWhile fun c => c.isAlphanum || c == '+' || c == '-' || c == '.' with
  | nil => rcases h with rfl | rfl <;> rfl
  | cons c r =>
    have hhead : (cs ++ mark :: more).head? = cs.head? := by
      cases cs with
      | nil => cases hrest
      | cons d cs => rfl
    rw [hhead, List.cons_append]
    by_cases hc : c = ':'
    · subst hc
      show (if _ then _ else _) = Option.map _ (if _ then _ else _)
      split <;> rfl
    · split
      · next heq => exact absurd (List.cons.inj heq).1 hc
      · split
        · next heq => exact absurd (List.cons.inj heq).1 hc
        · rfl

/-- Blanks at both ends are no part of the URL. -/
theorem trim_append (outer : Char → Bool) (hmark : outer mark = false)
    (hend : ∀ c ∈ cs.getLast?, outer c = false) (more : List Char) :
    ∃ rest, (((cs ++ mark :: more).dropWhile outer).reverse.dropWhile outer).reverse =
      ((cs.dropWhile outer).reverse.dropWhile outer).reverse ++ mark :: rest := by
  have hkept : (cs.dropWhile outer).reverse.dropWhile outer = (cs.dropWhile outer).reverse := by
    rcases List.eq_nil_or_concat' cs with rfl | ⟨front, c, rfl⟩
    · rfl
    · have hc : outer c = false := hend c (by simp)
      rw [dropWhile_append_mark outer hc, List.reverse_append, List.reverse_singleton,
        List.singleton_append, List.dropWhile_cons_of_neg (by simp [hc])]
  refine ⟨(more.reverse.dropWhile outer).reverse, ?_⟩
  rw [hkept, List.reverse_reverse, dropWhile_append_mark outer hmark, List.reverse_append,
    List.reverse_cons, List.append_assoc, List.singleton_append, dropWhile_append_mark outer hmark,
    List.reverse_append, List.reverse_cons, List.reverse_reverse, List.append_assoc,
    List.singleton_append]

/-- **Cleaning keeps the mark** behind what is kept of the text before it,
if that has no blanks at its end. -/
theorem cleaned_append (h : EndsPath mark) (hend : ∀ c ∈ s.toList.getLast?, 0x20 < c.toNat)
    (rest : String) :
    ∃ more, cleaned (s ++ String.singleton mark ++ rest) = cleaned s ++ mark :: more := by
  have hmark : decide (mark.toNat ≤ 0x20) = false := by rcases h with rfl | rfl <;> rfl
  have hbreak : (mark != '\t' && mark != '\n' && mark != '\r') = true := by
    rcases h with rfl | rfl <;> rfl
  have hsolid : ∀ c ∈ s.toList.getLast?, decide (c.toNat ≤ 0x20) = false := fun c hc =>
    decide_eq_false (Nat.not_le.mpr (hend c hc))
  obtain ⟨more, hmore⟩ := trim_append (fun c => decide (c.toNat ≤ 0x20)) hmark hsolid rest.toList
  refine ⟨more.filter fun c => c != '\t' && c != '\n' && c != '\r', ?_⟩
  simp only [cleaned, String.toList_append, String.toList_singleton, List.append_assoc,
    List.singleton_append]
  rw [hmore, List.filter_append, List.filter_cons, if_pos hbreak]

/-- Reads what stands behind the colon of a scheme that is not special. -/
def parsePlain (scheme : String) : List Char → Option Url
  | '/' :: '/' :: r => parseAuthority scheme r
  | '/' :: r => some ⟨scheme, false, pathSegments false false r⟩
  | _ => some ⟨scheme, false, []⟩

/-- A mark does not make a slash. -/
theorem EndsPath.ne_slash_cons (h : EndsPath mark) (hcs : ∀ r, cs = '/' :: r → False)
    (more : List Char) : ∀ r, cs ++ mark :: more = '/' :: r → False := by
  intro r heq
  cases cs with
  | nil =>
    obtain ⟨rfl, -⟩ := List.cons.inj heq
    rcases h with h | h <;> cases h
  | cons c cs => exact hcs cs (congrArg (· :: cs) (List.cons.inj heq).1)

theorem lastSegment_parsePlain_append (h : EndsPath mark) :
    lastSegment (parsePlain scheme (cs ++ mark :: more)) = lastSegment (parsePlain scheme cs) := by
  fun_cases parsePlain scheme cs with
  | case1 r => exact lastSegment_parseAuthority_append h
  | case2 r hr =>
    rw [List.cons_append, parsePlain.eq_2 scheme _ (h.ne_slash_cons hr more), pathSegments_append h]
  | case3 cs _ hcs =>
    have hslash := h.ne_slash_cons hcs more
    rw [parsePlain.eq_3 scheme _ (fun r => hslash ('/' :: r)) hslash]

/-- **What stands behind a mark does not count.** -/
theorem lastSegment_parse_append (h : EndsPath mark)
    (hend : ∀ c ∈ s.toList.getLast?, 0x20 < c.toNat) (rest : String) :
    lastSegment (parse (s ++ String.singleton mark ++ rest)) = lastSegment (parse s) := by
  obtain ⟨more, hcleaned⟩ := cleaned_append h hend rest
  rw [parse, parse, hcleaned, splitScheme_append h]
  cases splitScheme (cleaned s) with
  | none => rfl
  | some read =>
    obtain ⟨scheme, r⟩ := read
    dsimp only [Option.map_some]
    split_ifs
    · rw [parseFile_append h]
    · rw [dropWhile_append_mark _ h.isSlash, lastSegment_parseAuthority_append h]
    · exact lastSegment_parsePlain_append h

theorem fileName_eq (s : String) :
    fileName s = (lastSegment (parse s)).bind fun segment =>
      if segment.isEmpty then none else some (String.ofList segment) := by
  rw [fileName]
  cases parse s with
  | none => rfl
  | some url =>
    dsimp only [lastSegment, Option.bind_some]
    cases url.segments.getLast? <;> rfl

/-! ## Names and extensions -/

/-- A name that stands for itself in whatever directory it is put. -/
structure IsComponent (name : String) : Prop where
  nonempty : name ≠ ""
  segment : IsSegment name.toList

theorem isComponent_of_fileName (h : fileName s = some name) : IsComponent name := by
  rw [fileName_eq, Option.bind_eq_some_iff] at h
  obtain ⟨segment, hlast, hname⟩ := h
  obtain ⟨url, hurl, hsegment⟩ := Option.bind_eq_some_iff.mp hlast
  split_ifs at hname with hempty
  obtain rfl := Option.some.inj hname
  refine ⟨fun heq => hempty ?_, ?_⟩
  · rw [List.isEmpty_iff, ← String.toList_ofList (l := segment), heq]
    rfl
  · rw [String.toList_ofList]
    exact hasSegments_of_parse hurl _ (List.mem_of_getLast? hsegment)

/-- The extension is the end of the name, and the only point in it is its
first character. -/
def IsExtension (name ext : String) : Prop :=
  ∃ stem rest : List Char, name.toList = stem ++ '.' :: rest ∧ '.' ∉ rest ∧
    ext.toList = '.' :: rest

theorem fileExtension_eq_some (h : fileName s = some name) :
    fileExtension s = some ext ↔ IsExtension name ext := by
  have hread : fileExtension s = some ext ↔ Text.fromLast '.' name.toList = some ext.toList := by
    rw [fileExtension, h, Option.map_eq_some_iff]
    constructor
    · rintro ⟨cs, hcs, rfl⟩
      rwa [String.toList_ofList]
    · exact fun hcs => ⟨ext.toList, hcs, String.ofList_toList⟩
  rw [hread, Text.fromLast_eq_some]
  rfl

theorem isSome_fileExtension (h : fileName s = some name) :
    (fileExtension s).isSome ↔ '.' ∈ name.toList := by
  rw [fileExtension, h, Option.isSome_map, Text.fromLast]
  split
  · next hmem => exact iff_of_true rfl hmem
  · next hmem => exact iff_of_false Bool.false_ne_true hmem

/-- Of a text without blanks and control characters nothing is dropped. -/
theorem cleaned_of_visible (h : ∀ c ∈ s.toList, 0x20 < c.toNat) : cleaned s = s.toList := by
  have houter : ∀ cs : List Char, (∀ c ∈ cs, 0x20 < c.toNat) →
      cs.dropWhile (fun c => decide (c.toNat ≤ 0x20)) = cs := by
    intro cs hcs
    refine List.dropWhile_eq_self_iff.mpr fun hlength => ?_
    simpa using hcs _ (List.getElem_mem hlength)
  have hreverse : ∀ c ∈ s.toList.reverse, 0x20 < c.toNat := fun c hc =>
    h c (List.mem_reverse.mp hc)
  have hkept : ∀ c ∈ s.toList, (c != '\t' && c != '\n' && c != '\r') = true := by
    intro c hc
    have hvisible := h c hc
    simp only [Bool.and_eq_true, bne_iff_ne]
    refine ⟨⟨?_, ?_⟩, ?_⟩ <;>
    · rintro rfl
      exact absurd hvisible (by decide)
  simp only [cleaned, houter _ h, houter _ hreverse, List.reverse_reverse]
  exact List.filter_eq_self.mpr hkept

/-- **Every component is the name of a file**: that which it names under the
root of a scheme. -/
theorem fileName_of_isComponent (h : IsComponent name) : fileName ("e:/" ++ name) = some name := by
  have hchars : ("e:/" ++ name).toList = 'e' :: ':' :: '/' :: name.toList := by
    rw [String.toList_append]
    rfl
  have hvisible : ∀ c ∈ ("e:/" ++ name).toList, 0x20 < c.toNat := by
    rw [hchars]
    simp only [List.forall_mem_cons]
    exact ⟨by decide, by decide, by decide, fun c hc => (h.segment.chars c hc).visible.1⟩
  have hslash : ∀ r, name.toList = '/' :: r → False := fun r heq =>
    (h.segment.chars '/' (heq ▸ List.mem_cons_self)).no_divider List.mem_cons_self
  have hsegments : pathSegments false false name.toList = [name.toList] := by
    refine pathSegments_of_isSegment h.segment fun c hc => ?_
    have hdivider := (h.segment.chars c hc).no_divider
    simp only [List.mem_cons, not_or] at hdivider
    simp [isSlash, hdivider.1]
  have hparse : parse ("e:/" ++ name) = parsePlain "e" ('/' :: name.toList) := by
    rw [parse, cleaned_of_visible hvisible, hchars]
    rfl
  have hempty : name.toList.isEmpty = false := by
    rw [← Bool.not_eq_true, List.isEmpty_iff, String.toList_eq_nil_iff]
    exact h.nonempty
  rw [fileName_eq, hparse, parsePlain.eq_2 _ _ hslash, hsegments]
  show (if name.toList.isEmpty then none else some (String.ofList name.toList)) = some name
  rw [hempty, if_neg Bool.false_ne_true, String.ofList_toList]

/-- **The names of files are the components of paths**, whatever text the URL
is. The extension is what stands from the last point of the name on, if it
has one. A query or fragment behind the URL does not change the name. -/
theorem fileName_isComponent :
    (∀ name, (∃ s, fileName s = some name) ↔ IsComponent name) ∧
    (∀ s name, fileName s = some name →
      ((fileExtension s).isSome ↔ '.' ∈ name.toList) ∧
        ∀ ext, fileExtension s = some ext ↔ IsExtension name ext) ∧
    (∀ s : String, (∀ c ∈ s.toList.getLast?, 0x20 < c.toNat) → ∀ mark, EndsPath mark →
      ∀ rest : String, fileName (s ++ String.singleton mark ++ rest) = fileName s) := by
  refine ⟨fun name => ⟨fun ⟨s, h⟩ => isComponent_of_fileName h,
      fun h => ⟨_, fileName_of_isComponent h⟩⟩,
    fun s name h => ⟨isSome_fileExtension h, fun ext => fileExtension_eq_some h⟩,
    fun s hend mark hmark rest => ?_⟩
  rw [fileName_eq, fileName_eq, lastSegment_parse_append hmark hend]

/-- Blanks, backslashes, a drive that dots do not leave and letters that are
escaped, in front of a fragment with a slash and a point. -/
theorem fileName_isComponent_sample :
    IsComponent ".bc.%C3%A9.sh" ∧
    ((fileExtension " FILE:\\\\\\C|\\%2e.\\.b\tc.é.sh").isSome ↔ '.' ∈ ".bc.%C3%A9.sh".toList) ∧
    IsExtension ".bc.%C3%A9.sh" ".sh" ∧
    fileName (" FILE:\\\\\\C|\\%2e.\\.b\tc.é.sh" ++ String.singleton '#' ++ "/x.y ") =
      some ".bc.%C3%A9.sh" := by
  have hname : fileName " FILE:\\\\\\C|\\%2e.\\.b\tc.é.sh" = some ".bc.%C3%A9.sh" := by
    decide +kernel
  have hext : fileExtension " FILE:\\\\\\C|\\%2e.\\.b\tc.é.sh" = some ".sh" := by
    decide +kernel
  have hend : ∀ c ∈ " FILE:\\\\\\C|\\%2e.\\.b\tc.é.sh".toList.getLast?, 0x20 < c.toNat := by
    intro c hc
    obtain rfl : c = 'h' := Option.some.inj (hc.symm.trans (by decide))
    decide
  obtain ⟨hcomponent, hextension, hmark⟩ := fileName_isComponent
  refine ⟨(hcomponent _).mp ⟨_, hname⟩, (hextension _ _ hname).1,
    ((hextension _ _ hname).2 _).mp hext, ?_⟩
  exact (hmark _ hend '#' (.inr rfl) "/x.y ").trans hname

end Url

end ShellPreview
