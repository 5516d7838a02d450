import SwupdateIpc.Error
import SwupdateIpc.Foundations.LossyUtf8
import SwupdateIpc.Wire.ProgressMessages

/-!
# Which layout the daemon uses

The client runs the daemon for its version, and takes the first word that begins
with a `v` and has a dot for it. The layout is packed from the release 2025.12
on, and when no version can be read.
-/

set_option autoImplicit false

namespace SwupdateIpc

open Foundations Wire

/-! ## Texts -/

/-- `char::is_whitespace`. -/
def isWhitespace (c : Char) : Bool :=
  let n := c.toNat
  (0x9 ≤ n && n ≤ 0xD) || n == 0x20 || n == 0x85 || n == 0xA0 || n == 0x1680 ||
    (0x2000 ≤ n && n ≤ 0x200A) || n == 0x2028 || n == 0x2029 || n == 0x202F || n == 0x205F ||
    n == 0x3000

/-- `str::split_whitespace`. -/
def splitWhitespace (text : List Char) : List (List Char) :=
  (text.splitOnP isWhitespace).filter fun word => !word.isEmpty

/-- One more digit of a number that stays below `2 ^ 32`. -/
def pushDigit (n : Nat) (c : Char) : Option Nat :=
  if c.isDigit then
    let m := 10 * n + (c.toNat - '0'.toNat)
    if m < 2 ^ 32 then some m else none
  else none

/-- `str::parse::<u32>`. A sign may stand before the digits. -/
def parseU32 (text : List Char) : Option UInt32 :=
  let digits := match text with
    | '+' :: rest => rest
    | _ => text
  if digits.isEmpty then none else (digits.foldlM pushDigit 0).map UInt32.ofNat

/-! ## Versions -/

/-- Parse `SWUpdate vYYYY.MM` or `SWUpdate vYYYY.MM.P` into the year and the
month. -/
def parseSwupdateVersion (output : String) : Option (UInt32 × UInt32) := do
  let versionPart ← (splitWhitespace output.toList).find? fun word =>
    word.head? == some 'v' && word.contains '.'
  let parts := (versionPart.drop 1).splitOn '.'
  let year ← parts[0]? >>= parseU32
  let month ← parts[1]? >>= parseU32
  pure (year, month)

example : parseSwupdateVersion "SWUpdate v2024.12.1" = some (2024, 12) := by decide

/-- The layout that a version output stands for. -/
def layoutOfVersion (versionStr : String) : ProgressLayout :=
  match parseSwupdateVersion versionStr with
  | some (year, month) => if 2025 < year ∨ (year = 2025 ∧ 12 ≤ month) then .packed else .unpacked
  | none => .packed

/-- Detect the layout from the version of the installed daemon. -/
def detectLayout {σ : Type} : IpcM σ ProgressLayout := do
  let output ← await (.output "swupdate" ["--version"])
  let versionStr := match output with
    | .ok stdout => fromUtf8Lossy stdout
    | .error _ => ""
  pure (layoutOfVersion versionStr)

end SwupdateIpc
