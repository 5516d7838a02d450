import Mathlib.Data.Prod.Lex
import SwupdateIpc.Progress.Version

/-!
# Releases in a version output

A number is read exactly when it is written with decimal digits, with any zeros in
front and perhaps a sign, and stays below `2 ^ 32` (`parseU32_eq_some`). A version
word is read up to its second dot (`readVersion_eq_some`), and only the first word
of an output that begins with a `v` and has a dot is read.

An output with a release written as `vYEAR.MONTH`, with any rest after a further dot,
is read as that release, and its layout follows the order of the releases
(`printed_release_detected`). An output that announces an older release is not
always detected as one: its word may go on otherwise after the month, and another
word may stand before it (`older_release_detected_iff`).
-/

set_option autoImplicit false

namespace SwupdateIpc

open Foundations Wire

/-! ## Numbers -/

/-- Decimal digits that stand for a number. -/
structure Renders (digits : List Char) (n : Nat) : Prop where
  nonempty : digits ≠ []
  digit : ∀ c ∈ digits, c.isDigit = true
  value : Nat.ofDigitChars 10 digits 0 = n

/-- A number in decimal, with zeros in front. -/
def decimal (zeros n : Nat) : List Char := List.replicate zeros '0' ++ Nat.toDigits 10 n

theorem renders_decimal (zeros n : Nat) : Renders (decimal zeros n) n where
  nonempty := List.append_ne_nil_of_right_ne_nil _ Nat.toDigits_ne_nil
  digit := by
    intro c member
    rcases List.mem_append.mp member with zero | digit
    · rw [List.eq_of_mem_replicate zero]
      rfl
    · exact Nat.isDigit_of_mem_toDigits (by decide) (by decide) digit
  value := by
    rw [decimal, Nat.ofDigitChars_append, Nat.ofDigitChars_replicate_zero, Nat.mul_zero,
      Nat.ofDigitChars_ten_toDigits]

theorem Renders.not_mem {digits : List Char} {n : Nat} (renders : Renders digits n) {c : Char}
    (other : c.isDigit = false) : c ∉ digits := by
  intro member
  rw [renders.digit c member] at other
  cases other

/-- More digits make no smaller number. -/
theorem le_ofDigitChars (digits : List Char) (n : Nat) : n ≤ Nat.ofDigitChars 10 digits n := by
  induction digits generalizing n with
  | nil => rw [Nat.ofDigitChars_nil]
  | cons c digits ih =>
      rw [Nat.ofDigitChars_cons]
      have more := ih (10 * n + (c.toNat - '0'.toNat))
      omega

/-- Digits are pushed while the number stays small. -/
theorem foldlM_pushDigit_eq_some {digits : List Char} {n v : Nat} (small : n < 2 ^ 32) :
    digits.foldlM pushDigit n = some v ↔
      (∀ c ∈ digits, c.isDigit = true) ∧ Nat.ofDigitChars 10 digits n = v ∧ v < 2 ^ 32 := by
  induction digits generalizing n with
  | nil =>
      rw [List.foldlM_nil, Nat.ofDigitChars_nil]
      constructor
      · rintro ⟨⟩
        exact ⟨by simp, rfl, small⟩
      · rintro ⟨_, rfl, _⟩
        rfl
  | cons c digits ih =>
      rw [List.foldlM_cons, Nat.ofDigitChars_cons, List.forall_mem_cons, pushDigit]
      cases digit : c.isDigit with
      | false => simp
      | true =>
          by_cases fits : 10 * n + (c.toNat - '0'.toNat) < 2 ^ 32
          · simp only [if_true, if_pos fits, Option.bind_eq_bind, Option.bind_some, ih fits,
              true_and]
          · simp only [if_true, if_neg fits, Option.bind_eq_bind, Option.bind_none, reduceCtorEq,
              false_iff, true_and]
            -- What the first digits make too large, the rest of them leaves too large.
            rintro ⟨_, rfl, bound⟩
            have more := le_ofDigitChars digits (10 * n + (c.toNat - '0'.toNat))
            omega

/-- The text of a number below `2 ^ 32`: its digits, perhaps after a sign. -/
def Number (text : List Char) (n : Nat) : Prop :=
  n < 2 ^ 32 ∧ (Renders text n ∨ ∃ digits, text = '+' :: digits ∧ Renders digits n)

/-- Unsigned digits are read as the number they stand for. -/
theorem pushDigits_eq_some {digits : List Char} {v : UInt32} :
    (if digits.isEmpty then none else (digits.foldlM pushDigit 0).map UInt32.ofNat) = some v ↔
      v.toNat < 2 ^ 32 ∧ Renders digits v.toNat := by
  have bound := v.toNat_lt
  cases digits with
  | nil => exact ⟨nofun, fun ⟨_, renders⟩ => absurd rfl renders.nonempty⟩
  | cons c digits =>
      rw [List.isEmpty_cons, if_neg (by simp), Option.map_eq_some_iff]
      constructor
      · rintro ⟨n, read, rfl⟩
        obtain ⟨digit, value, small⟩ := (foldlM_pushDigit_eq_some (by decide)).mp read
        rw [UInt32.toNat_ofNat_of_lt' small] at bound ⊢
        exact ⟨bound, List.cons_ne_nil _ _, digit, value⟩
      · rintro ⟨_, renders⟩
        refine ⟨v.toNat, ?_, UInt32.ofNat_toNat⟩
        exact (foldlM_pushDigit_eq_some (by decide)).mpr ⟨renders.digit, renders.value, bound⟩

/-- **Reading a number**, with nothing lost and nothing wrapped. -/
theorem parseU32_eq_some {text : List Char} {v : UInt32} :
    parseU32 text = some v ↔ Number text v.toNat := by
  have unsigned : ¬ Renders ('+' :: text.tail) v.toNat := fun renders =>
    renders.not_mem (c := '+') rfl (List.mem_cons_self ..)
  unfold parseU32 Number
  split
  next rest =>
    rw [pushDigits_eq_some]
    refine and_congr_right fun _ => ⟨fun renders => .inr ⟨rest, rfl, renders⟩, ?_⟩
    rintro (renders | ⟨digits, same, renders⟩)
    · exact absurd renders unsigned
    · cases same
      exact renders
  next other =>
    rw [pushDigits_eq_some]
    refine and_congr_right fun _ => ⟨.inl, ?_⟩
    rintro (renders | ⟨digits, rfl, _⟩)
    · exact renders
    · exact absurd rfl (other digits)

/-! ## Words -/

/-- Text up to a whitespace is split on its own. -/
theorem splitWhitespace_append {before : List Char} (rest : List Char)
    (ends : ∀ c, before.getLast? = some c → isWhitespace c = true) :
    splitWhitespace (before ++ rest) = splitWhitespace before ++ splitWhitespace rest := by
  rcases List.eq_nil_or_concat before with rfl | ⟨front, space, rfl⟩
  · rfl
  · have white : isWhitespace space = true := ends space (by simp)
    rw [List.concat_eq_append, List.append_assoc, List.singleton_append]
    simp only [splitWhitespace, List.splitOnP_append_cons front _ white, List.filter_append]
    simp

/-- A word without whitespace is one word. -/
theorem splitWhitespace_word {word : List Char} (solid : ∀ c ∈ word, isWhitespace c = false)
    (some_char : word ≠ []) {after : List Char}
    (begins : ∀ c, after.head? = some c → isWhitespace c = true) :
    splitWhitespace (word ++ after) = word :: splitWhitespace after := by
  have kept : [word].filter (fun w => !w.isEmpty) = [word] := by
    simp [some_char]
  cases after with
  | nil => rw [List.append_nil, splitWhitespace, List.splitOnP_eq_singleton solid, kept]; rfl
  | cons space rest =>
      have white : isWhitespace space = true := begins space rfl
      have alone := List.splitOnP_append_cons [] rest white
      rw [List.nil_append, List.splitOnP_nil] at alone
      rw [splitWhitespace, splitWhitespace, alone,
        List.splitOnP_append_cons_of_forall_mem solid space white, List.filter_cons]
      simp [some_char]

theorem not_white_of_digit {c : Char} (digit : c.isDigit = true) : isWhitespace c = false := by
  simp only [Char.isDigit, Bool.and_eq_true, decide_eq_true_eq, ge_iff_le,
    UInt32.le_iff_toNat_le] at digit
  have low : 48 ≤ c.toNat := digit.1
  have high : c.toNat ≤ 57 := digit.2
  simp only [isWhitespace, Bool.or_eq_false_iff, Bool.and_eq_false_iff, decide_eq_false_iff_not,
    beq_eq_false_iff_ne]
  omega

/-- Whether a word is taken for the version: it begins with a `v` and has a dot. -/
def isVersionWord (word : List Char) : Bool := word.head? == some 'v' && word.contains '.'

/-- The year and the month of a version word. -/
def readVersion (word : List Char) : Option (UInt32 × UInt32) := do
  let parts := (word.drop 1).splitOn '.'
  let year ← parts[0]? >>= parseU32
  let month ← parts[1]? >>= parseU32
  pure (year, month)

theorem parseSwupdateVersion_eq (output : String) :
    parseSwupdateVersion output =
      ((splitWhitespace output.toList).find? isVersionWord).bind readVersion := rfl

/-- The first part of a text between dots is what stands before its first dot. -/
theorem splitOn_dot (text : List Char) :
    ∃ parts, text.splitOn '.' = text.takeWhile (· ≠ '.') :: parts := by
  rw [List.splitOn_eq_splitOnP]
  induction text with
  | nil => exact ⟨[], rfl⟩
  | cons c text ih =>
      obtain ⟨parts, split⟩ := ih
      rw [List.splitOnP_cons_eq_if_modifyHead, split]
      by_cases dot : c = '.'
      · rw [dot]
        exact ⟨_, rfl⟩
      · exact ⟨parts, by simp [dot]⟩

/-- Text without a dot belongs to the first part. -/
theorem part_append {text : List Char} (plain : '.' ∉ text) (rest : List Char) :
    (text ++ rest).takeWhile (· ≠ '.') = text ++ rest.takeWhile (· ≠ '.') := by
  refine List.takeWhile_append_of_pos fun c member => decide_eq_true ?_
  rintro rfl
  exact plain member

/-- The first part is empty at the end of a text and before a dot. -/
theorem part_eq_nil {text : List Char} :
    text.takeWhile (· ≠ '.') = [] ↔ text = [] ∨ text.head? = some '.' := by
  cases text with
  | nil => simp
  | cons c rest =>
      by_cases dot : c = '.'
      · simp [dot]
      · simp [dot]

/-- The year stands before the first dot, and the month between it and the next. -/
theorem readVersion_parts {year : List Char} (plain : '.' ∉ year) (rest : List Char) :
    readVersion ('v' :: (year ++ '.' :: rest)) =
      (parseU32 year).bind fun y => (parseU32 (rest.takeWhile (· ≠ '.'))).map fun m => (y, m) := by
  obtain ⟨parts, split⟩ := splitOn_dot rest
  have whole : (year ++ '.' :: rest).splitOn '.' = year :: rest.takeWhile (· ≠ '.') :: parts := by
    rw [List.splitOn_append_cons_self_of_not_mem plain, split]
  simp only [readVersion, List.drop_succ_cons, List.drop_zero, whole, List.getElem?_cons_zero,
    List.getElem?_cons_succ]
  generalize rest.takeWhile (· ≠ '.') = month
  cases first : parseU32 year with
  | none => simp [first]
  | some y => cases second : parseU32 month <;> simp [first, second]

/-- A word that is read as a release: it goes on after the month with nothing or with
a dot. -/
def ReadsAs (word : List Char) (year month : Nat) : Prop :=
  ∃ y m rest, word = 'v' :: (y ++ '.' :: (m ++ rest)) ∧ Number y year ∧ Number m month ∧
    (rest = [] ∨ rest.head? = some '.')

theorem Number.not_dot {text : List Char} {n : Nat} (number : Number text n) : '.' ∉ text := by
  rcases number with ⟨_, renders | ⟨digits, rfl, renders⟩⟩
  · exact renders.not_mem rfl
  · exact List.not_mem_cons_of_ne_of_not_mem (by decide) (renders.not_mem rfl)

/-- What stands before the first dot is read as the year, and what stands between it and
the next as the month. -/
theorem readsAs_parts {y : List Char} (plain : '.' ∉ y) {rest : List Char} {year month : Nat} :
    ReadsAs ('v' :: (y ++ '.' :: rest)) year month ↔
      Number y year ∧ Number (rest.takeWhile (· ≠ '.')) month := by
  constructor
  · rintro ⟨y', m, more, same, year_number, month_number, goes_on⟩
    have parts : y ++ '.' :: rest = y' ++ '.' :: (m ++ more) := (List.cons.inj same).2
    obtain rfl : y = y' := by
      have first := congrArg (List.takeWhile (· ≠ '.')) parts
      rw [part_append plain, part_append year_number.not_dot] at first
      exact List.append_cancel_right first
    obtain rfl : rest = m ++ more := (List.cons.inj (List.append_cancel_left parts)).2
    rw [part_append month_number.not_dot, part_eq_nil.mpr goes_on, List.append_nil]
    exact ⟨year_number, month_number⟩
  · rintro ⟨year_number, month_number⟩
    refine ⟨y, _, rest.dropWhile (· ≠ '.'), ?_, year_number, month_number, ?_⟩
    · rw [List.takeWhile_append_dropWhile]
    · rcases left : rest.dropWhile (· ≠ '.') with _ | ⟨c, more⟩
      · exact .inl rfl
      · have stops := List.head?_dropWhile_not (fun c => decide (c ≠ '.')) rest
        rw [left] at stops
        exact .inr (by simpa using stops)

/-- A version word has a first dot. -/
theorem isVersionWord_parts {word : List Char} (version : isVersionWord word = true) :
    ∃ year rest, word = 'v' :: (year ++ '.' :: rest) ∧ '.' ∉ year := by
  simp only [isVersionWord, Bool.and_eq_true, beq_iff_eq, List.contains_iff_mem] at version
  obtain ⟨first, dot⟩ := version
  obtain ⟨tail, rfl⟩ := List.head?_eq_some_iff.mp first
  have later : '.' ∈ tail := (List.mem_cons.mp dot).resolve_left (by decide)
  obtain ⟨year, rest, rfl, plain⟩ := List.eq_append_cons_of_mem later
  exact ⟨year, rest, rfl, plain⟩

/-- **Reading a version word.** -/
theorem readVersion_eq_some {word : List Char} (version : isVersionWord word = true)
    {y m : UInt32} : readVersion word = some (y, m) ↔ ReadsAs word y.toNat m.toNat := by
  obtain ⟨year, rest, rfl, plain⟩ := isVersionWord_parts version
  rw [readVersion_parts plain, readsAs_parts plain, ← parseU32_eq_some, ← parseU32_eq_some]
  constructor
  · intro read
    obtain ⟨y', first, second⟩ := Option.bind_eq_some_iff.mp read
    obtain ⟨m', month, same⟩ := Option.map_eq_some_iff.mp second
    cases same
    exact ⟨first, month⟩
  · rintro ⟨first, month⟩
    rw [first, month]
    rfl

/-! ## Releases -/

/-- The releases in their order: by the year, then by the month. -/
abbrev Release := Nat ×ₗ Nat

/-- The first release with the packed layout. -/
def firstPacked : Release := toLex (2025, 12)

/-- The layout follows the order of the releases. -/
theorem layoutOfVersion_eq_packed {output : String} {year month : UInt32}
    (parsed : parseSwupdateVersion output = some (year, month)) :
    layoutOfVersion output = .packed ↔ firstPacked ≤ toLex (year.toNat, month.toNat) := by
  have order : (2025 < year ∨ year = 2025 ∧ 12 ≤ month) ↔
      firstPacked ≤ toLex (year.toNat, month.toNat) := by
    rw [firstPacked, Prod.Lex.toLex_le_toLex, UInt32.lt_iff_toNat_lt, UInt32.le_iff_toNat_le,
      ← UInt32.toNat_inj]
    exact or_congr Iff.rfl (and_congr eq_comm Iff.rfl)
  rw [layoutOfVersion, parsed, ← order]
  show (if _ then ProgressLayout.packed else .unpacked) = _ ↔ _
  by_cases late : 2025 < year ∨ year = 2025 ∧ 12 ≤ month
  · simp [late]
  · simp [late]

/-- An output is read with the unpacked layout exactly when its version word is read as
a release older than the first packed one. -/
theorem layoutOfVersion_eq_unpacked {output : String} :
    layoutOfVersion output = .unpacked ↔
      ∃ word year month, (splitWhitespace output.toList).find? isVersionWord = some word ∧
        ReadsAs word year month ∧ toLex (year, month) < firstPacked := by
  constructor
  · intro unpacked
    cases parsed : parseSwupdateVersion output with
    | none =>
        rw [layoutOfVersion, parsed] at unpacked
        cases unpacked
    | some release =>
        obtain ⟨year, month⟩ := release
        have older : toLex (year.toNat, month.toNat) < firstPacked := by
          apply not_le.mp
          intro late
          rw [(layoutOfVersion_eq_packed parsed).mpr late] at unpacked
          cases unpacked
        rw [parseSwupdateVersion_eq] at parsed
        obtain ⟨word, found, read⟩ := Option.bind_eq_some_iff.mp parsed
        exact ⟨word, _, _, found, (readVersion_eq_some (List.find?_some found)).mp read, older⟩
  · rintro ⟨word, year, month, found, reads, older⟩
    obtain ⟨y, rfl⟩ : ∃ y : UInt32, y.toNat = year := by
      obtain ⟨_, _, _, _, ⟨small, _⟩, _⟩ := reads
      exact ⟨.ofNat year, UInt32.toNat_ofNat_of_lt' small⟩
    obtain ⟨m, rfl⟩ : ∃ m : UInt32, m.toNat = month := by
      obtain ⟨_, _, _, _, _, ⟨small, _⟩, _⟩ := reads
      exact ⟨.ofNat month, UInt32.toNat_ofNat_of_lt' small⟩
    have parsed : parseSwupdateVersion output = some (y, m) := by
      rw [parseSwupdateVersion_eq, found]
      exact (readVersion_eq_some (List.find?_some found)).mpr reads
    cases layout : layoutOfVersion output with
    | unpacked => rfl
    | packed => exact absurd ((layoutOfVersion_eq_packed parsed).mp layout) (not_le.mpr older)

/-! ## Detection -/

/-- The layout of what running the installed daemon for its version gives. -/
def layoutOfOutput : Except IoError (List UInt8) → ProgressLayout
  | .ok stdout => layoutOfVersion (fromUtf8Lossy stdout)
  | .error _ => layoutOfVersion ""

/-- **What a detection can do.** It ends with the layout of the output. -/
theorem exec_detectLayout {σ τ : Type} {mark : τ} {c c' : Config σ (World τ)}
    {o : Outcome Error ProgressLayout} (exec : Exec (World.device mark) detectLayout c o c') :
    (o = .ok (layoutOfOutput c.world.output.1) ∧ c' = ⟨c.own, c.world.output.2⟩) ∨
      (o = .dropped ∧ c' = c) := by
  rcases exec_await_bind.mp exec with ⟨answer, w, answered, rest⟩ | ⟨_, rfl, dropped, rfl⟩
  · have same : (answer, w) = c.world.output := answered
    rw [← same]
    obtain ⟨rfl, rfl⟩ := rest
    refine .inl ⟨?_, rfl⟩
    cases answer <;> rfl
  · exact .inr ⟨dropped, rfl⟩

/-- What is detected from the bytes that the installed daemon prints for its version:
every detection that is not dropped ends with this layout. -/
def Detected (stdout : List UInt8) (layout : ProgressLayout) : Prop :=
  ∀ (c c' : Config Unit (World Unit)) (o : Outcome Error ProgressLayout),
    c.world.output.1 = .ok stdout → Exec (World.device ()) detectLayout c o c' →
      o = .ok layout ∨ o = .dropped

theorem detected_iff {stdout : List UInt8} {layout : ProgressLayout} :
    Detected stdout layout ↔ layoutOfVersion (fromUtf8Lossy stdout) = layout := by
  constructor
  · intro detected
    let c : Config Unit (World Unit) :=
      ⟨(), { World.initial (fun _ => []) with outputs := [.ok stdout] }⟩
    have exec := World.exec_serve () (detectLayout : IpcM Unit ProgressLayout) c
    rcases detected c _ _ rfl exec with returned | dropped
    · cases returned
      rfl
    · cases dropped
  · rintro rfl c c' o printed exec
    rcases exec_detectLayout exec with ⟨returned, _⟩ | ⟨dropped, _⟩
    · rw [printed] at returned
      exact .inl returned
    · exact .inr dropped

/-! ## A release as it is printed -/

/-- An output with a release. Before its word stands anything without a version word,
apart from it, and after it anything, apart from it. -/
structure PrintedRelease where
  before : List Char
  yearZeros : Nat
  year : UInt32
  monthZeros : Nat
  month : UInt32
  rest : Option (List Char)
  after : List Char
  before_ends : ∀ c, before.getLast? = some c → isWhitespace c = true
  before_other : ∀ word ∈ splitWhitespace before, ¬ (word.head? = some 'v' ∧ '.' ∈ word)
  rest_solid : ∀ chars, rest = some chars → ∀ c ∈ chars, isWhitespace c = false
  after_begins : ∀ c, after.head? = some c → isWhitespace c = true

namespace PrintedRelease

/-- What follows the month. -/
def suffix (r : PrintedRelease) : List Char := r.rest.elim [] (List.cons '.')

/-- The word of the release. -/
def word (r : PrintedRelease) : List Char :=
  'v' :: (decimal r.yearZeros r.year.toNat ++ '.' ::
    (decimal r.monthZeros r.month.toNat ++ r.suffix))

def output (r : PrintedRelease) : String := String.ofList (r.before ++ (r.word ++ r.after))

def release (r : PrintedRelease) : Release := toLex (r.year.toNat, r.month.toNat)

theorem word_solid (r : PrintedRelease) : ∀ c ∈ r.word, isWhitespace c = false := by
  intro c member
  have digits : ∀ zeros n, c ∈ decimal zeros n → isWhitespace c = false := fun zeros n inside =>
    not_white_of_digit ((renders_decimal zeros n).digit c inside)
  rcases List.mem_cons.mp member with rfl | inside
  · rfl
  rcases List.mem_append.mp inside with year | inside
  · exact digits _ _ year
  rcases List.mem_cons.mp inside with rfl | inside
  · rfl
  rcases List.mem_append.mp inside with month | inside
  · exact digits _ _ month
  cases rest : r.rest with
  | none =>
      rw [suffix, rest] at inside
      cases inside
  | some chars =>
      rw [suffix, rest] at inside
      rcases List.mem_cons.mp inside with rfl | inside
      · rfl
      · exact r.rest_solid chars rest c inside

/-- The first version word of the output is the one of the release. -/
theorem find_version (r : PrintedRelease) :
    (splitWhitespace r.output.toList).find? isVersionWord = some r.word := by
  have none_before : (splitWhitespace r.before).find? isVersionWord = none := by
    refine List.find?_eq_none.mpr fun word member version => r.before_other word member ?_
    simpa [isVersionWord] using version
  have version : isVersionWord r.word = true := by simp [isVersionWord, word]
  rw [output, String.toList_ofList, splitWhitespace_append _ r.before_ends,
    splitWhitespace_word r.word_solid (List.cons_ne_nil _ _) r.after_begins,
    List.find?_append, none_before, Option.none_or, List.find?_cons_of_pos version]

/-- **A printed release is read back.** -/
theorem parsed (r : PrintedRelease) : parseSwupdateVersion r.output = some (r.year, r.month) := by
  have version : isVersionWord r.word = true := by simp [isVersionWord, word]
  rw [parseSwupdateVersion_eq, r.find_version]
  refine (readVersion_eq_some version).mpr ⟨_, _, r.suffix, rfl, ?_, ?_, ?_⟩
  · exact ⟨r.year.toNat_lt, .inl (renders_decimal _ _)⟩
  · exact ⟨r.month.toNat_lt, .inl (renders_decimal _ _)⟩
  · cases rest : r.rest with
    | none => exact .inl (by rw [suffix, rest]; rfl)
    | some chars => exact .inr (by rw [suffix, rest]; rfl)

/-- The layout detected from a printed release follows the order of the releases. -/
theorem detected_packed_iff (r : PrintedRelease) :
    Detected (utf8Bytes r.output) .packed ↔ firstPacked ≤ r.release := by
  rw [detected_iff, fromUtf8Lossy_utf8Bytes]
  exact layoutOfVersion_eq_packed r.parsed

end PrintedRelease

/-- **Printed releases.** Each is read back as it is, the packed layout is detected
exactly from the first packed release on, and so a later release never has an earlier
layout. -/
theorem printed_release_detected :
    (∀ r : PrintedRelease, parseSwupdateVersion r.output = some (r.year, r.month)) ∧
    (∀ r : PrintedRelease, Detected (utf8Bytes r.output) .packed ↔ firstPacked ≤ r.release) ∧
    (∀ r : PrintedRelease, Detected (utf8Bytes r.output) .unpacked ↔ r.release < firstPacked) ∧
    ∀ r r' : PrintedRelease, r.release ≤ r'.release →
      Detected (utf8Bytes r.output) .packed → Detected (utf8Bytes r'.output) .packed := by
  refine ⟨PrintedRelease.parsed, PrintedRelease.detected_packed_iff, ?_, ?_⟩
  · intro r
    rw [← not_le, ← r.detected_packed_iff, detected_iff, detected_iff]
    cases layoutOfVersion (fromUtf8Lossy (utf8Bytes r.output)) <;> simp
  · intro r r' order packed
    rw [PrintedRelease.detected_packed_iff] at packed ⊢
    exact packed.trans order

/-! ## A release as it is announced -/

/-- A word that announces a release: a `v`, the year, a dot and the month, and whatever
does not begin with a digit. -/
def Announces (word : List Char) (year month : Nat) : Prop :=
  ∃ y m suffix, word = 'v' :: (y ++ '.' :: (m ++ suffix)) ∧ Renders y year ∧ Renders m month ∧
    ∀ c, suffix.head? = some c → c.isDigit = false

/-- A text of which the first word that announces a release announces an older one than
the first packed one. -/
structure OlderAnnounced (text : List Char) where
  before : List (List Char)
  yearDigits : List Char
  year : Nat
  monthDigits : List Char
  month : Nat
  suffix : List Char
  after : List (List Char)
  words : splitWhitespace text =
    before ++ ('v' :: (yearDigits ++ '.' :: (monthDigits ++ suffix))) :: after
  first : ∀ word ∈ before, ∀ y m, ¬ Announces word y m
  year_digits : Renders yearDigits year
  month_digits : Renders monthDigits month
  suffix_begins : ∀ c, suffix.head? = some c → c.isDigit = false
  older : toLex (year, month) < firstPacked

/-- Digits without a sign are read as the number they stand for, if it is not too
large. -/
theorem Renders.number_iff {digits : List Char} {n n' : Nat} (renders : Renders digits n) :
    Number digits n' ↔ n' = n ∧ n < 2 ^ 32 := by
  constructor
  · rintro ⟨small, renders' | ⟨rest, rfl, _⟩⟩
    · obtain rfl : n' = n := renders'.value.symm.trans renders.value
      exact ⟨rfl, small⟩
    · exact absurd (List.mem_cons_self ..) (renders.not_mem (c := '+') rfl)
  · rintro ⟨rfl, small⟩
    exact ⟨small, .inl renders⟩

/-- The month of an announcement is read only if its word ends after it or goes on with
a dot. -/
theorem Renders.month_iff {digits suffix : List Char} {n n' : Nat} (renders : Renders digits n)
    (begins : ∀ c, suffix.head? = some c → c.isDigit = false) :
    Number ((digits ++ suffix).takeWhile (· ≠ '.')) n' ↔
      n' = n ∧ n < 2 ^ 32 ∧ (suffix = [] ∨ suffix.head? = some '.') := by
  rw [part_append (renders.not_mem rfl), ← part_eq_nil]
  cases suffix with
  | nil => simpa using renders.number_iff
  | cons c rest =>
      by_cases dot : c = '.'
      · simpa [dot] using renders.number_iff
      · have other : c.isDigit = false := begins c rfl
        have inside : c ∈ digits ++ (c :: rest).takeWhile (· ≠ '.') := by simp [dot]
        have more : (c :: rest).takeWhile (· ≠ '.') ≠ [] := by simp [dot]
        simp only [more, and_false, iff_false]
        rintro ⟨_, signless | ⟨_, signed, _⟩⟩
        · exact signless.not_mem other inside
        · -- The month begins with a digit, and so with no sign.
          obtain ⟨d, ds, rfl⟩ := List.exists_cons_of_ne_nil renders.nonempty
          obtain rfl : d = '+' := (List.cons.inj signed).1
          exact renders.not_mem (c := '+') rfl (List.mem_cons_self ..)

/-- **When an older release is detected.** No version word stands before the one that
announces it, its month fits, and its word ends after the month or goes on with a dot.
Or the first version word before it, which does not announce a release, is still read as
an older one. -/
theorem older_release_detected_iff {stdout : List UInt8}
    (a : OlderAnnounced (fromUtf8Lossy stdout).toList) :
    Detected stdout .unpacked ↔
      (a.before.find? isVersionWord = none ∧ a.month < 2 ^ 32 ∧
        (a.suffix = [] ∨ a.suffix.head? = some '.')) ∨
      ∃ word year month, a.before.find? isVersionWord = some word ∧
        ReadsAs word year month ∧ toLex (year, month) < firstPacked := by
  have version : isVersionWord ('v' :: (a.yearDigits ++ '.' :: (a.monthDigits ++ a.suffix))) := by
    simp [isVersionWord]
  have reads : ∀ y m, ReadsAs ('v' :: (a.yearDigits ++ '.' :: (a.monthDigits ++ a.suffix))) y m ↔
      (y = a.year ∧ a.year < 2 ^ 32) ∧
        m = a.month ∧ a.month < 2 ^ 32 ∧ (a.suffix = [] ∨ a.suffix.head? = some '.') := by
    intro y m
    rw [readsAs_parts (a.year_digits.not_mem rfl), a.year_digits.number_iff,
      a.month_digits.month_iff a.suffix_begins]
  have small : a.year < 2 ^ 32 := by
    rcases Prod.Lex.toLex_lt_toLex.mp a.older with less | ⟨same, _⟩
    · exact less.trans (by decide)
    · have year : a.year = 2025 := same
      omega
  rw [detected_iff, layoutOfVersion_eq_unpacked, a.words, List.find?_append,
    List.find?_cons_of_pos version]
  cases earlier : a.before.find? isVersionWord with
  | some word => simp
  | none =>
      simp only [Option.none_or, Option.some.injEq, true_and, reduceCtorEq, false_and,
        exists_false, or_false]
      constructor
      · rintro ⟨_, y, m, rfl, read, _⟩
        exact ((reads y m).mp read).2.2
      · rintro fits
        exact ⟨_, _, _, rfl, (reads _ _).mpr ⟨⟨rfl, small⟩, rfl, fits⟩, a.older⟩

/-- A suffix that begins with a hyphen makes the packed layout out of an older
release. -/
theorem hyphened_release_is_packed :
    ¬ ∀ (stdout : List UInt8), OlderAnnounced (fromUtf8Lossy stdout).toList →
      Detected stdout .unpacked := by
  intro claim
  have text : (fromUtf8Lossy (utf8Bytes "SWUpdate v2024.05-dirty")).toList =
      "SWUpdate v2024.05-dirty".toList := by rw [fromUtf8Lossy_utf8Bytes]
  have detected := claim (utf8Bytes "SWUpdate v2024.05-dirty")
    { before := ["SWUpdate".toList]
      yearDigits := decimal 0 2024
      year := 2024
      monthDigits := decimal 1 5
      month := 5
      suffix := "-dirty".toList
      after := []
      words := by rw [text]; decide
      first := by
        rintro word member y m ⟨_, _, _, rfl, _⟩
        cases List.mem_singleton.mp member
      year_digits := renders_decimal 0 2024
      month_digits := renders_decimal 1 5
      suffix_begins := by
        rintro c ⟨⟩
        rfl
      older := by decide }
  rw [detected_iff, fromUtf8Lossy_utf8Bytes] at detected
  exact absurd detected (by decide)

end SwupdateIpc
