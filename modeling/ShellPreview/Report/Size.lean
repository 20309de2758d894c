import ShellPreview.Number.Binary64
/-!
# Sizes of files

A size is written in the largest unit that it fills, with one digit behind
the point. The number of bytes is taken with 53 significant bits, like any
number that is going to be divided; a tie between two digits goes to the
even one.
-/

namespace ShellPreview.Report

/-- A unit of size. -/
inductive SizeUnit
  | byte
  | kilobyte
  | megabyte
  | gigabyte
deriving DecidableEq

namespace SizeUnit

/-- The bytes of a unit. -/
def bytes : SizeUnit → Nat
  | .byte => 1
  | .kilobyte => 1024
  | .megabyte => 1024 * 1024
  | .gigabyte => 1024 * 1024 * 1024

/-- The letters of a unit. -/
def symbol : SizeUnit → String
  | .byte => "B"
  | .kilobyte => "KB"
  | .megabyte => "MB"
  | .gigabyte => "GB"

/-- The largest unit that a number of bytes fills. -/
def ofBytes (n : Nat) : SizeUnit :=
  if n < kilobyte.bytes then .byte
  else if n < megabyte.bytes then .kilobyte
  else if n < gigabyte.bytes then .megabyte
  else .gigabyte

end SizeUnit

/-- A number of bytes with 53 significant bits. -/
def significantBytes (n : Nat) : Nat :=
  match Number.Magnitude.ofNat n with
  | some m => m.ratio.1 / m.ratio.2
  | none => n

/-- The tenths of a unit that a number of bytes comes to. -/
def sizeTenths (unit : SizeUnit) (n : Nat) : Nat :=
  Number.tenths (significantBytes n) unit.bytes

/-- A number of bytes in words. -/
def sizeText (n : Nat) : String :=
  match SizeUnit.ofBytes n with
  | .byte => Nat.repr n ++ " B"
  | unit => Number.tenthsText (sizeTenths unit n) ++ " " ++ unit.symbol

end ShellPreview.Report
