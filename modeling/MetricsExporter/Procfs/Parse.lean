/-
# MetricsExporter.Procfs.Parse -- bytes, errors and the numeric token parsers

File contents are lists of octets. The pieces of the standard library that the parsers are made of
(`trim_ascii`, `split_whitespace`, `str::lines` and so on) are defined here under their own
behaviour, each by the readings of `Lib.Slices`.

The numeric readers the repository calls are not part of it: they are the fields of `Readers`, a
parameter of every parser that calls them. What a result needs to know about them is stated where it
is needed: `Readers.ReadsDecimals`, that the numeral the kernel prints is read back, or
`Readers.ReadsIntegers`, that at the integer types they do what the documentation says, where it
also matters what they refuse. Nothing is ever assumed of the two float readers, so no result here
says which number a text like `0.25` is.

`Readers.documented` meets both assumptions and can be run. It is what examples are evaluated with,
and it shows that the assumptions can be met.
-/
import MetricsExporter.Lib.Slices
import MetricsExporter.Lib.Utf8
import MetricsExporter.Lib.Decimal

namespace MetricsExporter.Procfs

open MetricsExporter.Lib

abbrev Bytes := List UInt8

/-! ## Octets -/

/-- `u8::is_ascii_whitespace`: space, tab, line feed, form feed, carriage return. -/
def isAsciiWhitespace (b : UInt8) : Bool :=
  b == 32 || b == 9 || b == 10 || b == 12 || b == 13

/-- The five blanks one by one. -/
theorem isAsciiWhitespace_cases {b : UInt8} (hb : isAsciiWhitespace b = true) :
    b = 32 ∨ b = 9 ∨ b = 10 ∨ b = 12 ∨ b = 13 := by
  simpa [isAsciiWhitespace, or_assoc] using hb

/-- The octet `b'\n'`. -/
def newline : UInt8 := 10

/-- The octet `b':'`. -/
def colonByte : UInt8 := 58

/-- A byte string literal `b"..."`. -/
def bytes (s : String) : Bytes := Utf8.encode s

/-- `content.split(|&b| b == b'\n')`. -/
def lines (content : Bytes) : List Bytes := content.splitOn newline

/-- The text of the lines `ls`. -/
def unlines (ls : List Bytes) : Bytes := [newline].intercalate ls

/-- **Round trip.** A text made of lines falls into these lines, as `split` gives a text without a
line feed as one piece. -/
theorem lines_unlines {ls : List Bytes} (hlines : ∀ l ∈ ls, newline ∉ l) (hne : ls ≠ []) :
    lines (unlines ls) = ls := List.splitOn_intercalate newline hlines hne

/-- A line reader that reads nothing from an empty line goes through the lines `ls`, also where
there are none. -/
theorem filterMap_lines_unlines {β : Type*} {read : Bytes → Option β} (hempty : read [] = none)
    {ls : List Bytes} (hlines : ∀ l ∈ ls, newline ∉ l) :
    (lines (unlines ls)).filterMap read = ls.filterMap read := by
  by_cases hne : ls = []
  · subst hne
    exact List.filterMap_cons_none hempty
  · rw [lines_unlines hlines hne]

/-- `line.split(u8::is_ascii_whitespace).filter(|token| !token.is_empty())`. -/
def asciiTokens (line : Bytes) : List Bytes := tokens isAsciiWhitespace line

/-- `<[u8]>::trim_ascii`. -/
def trimAscii (l : Bytes) : Bytes := trim isAsciiWhitespace l

/-- `line.iter().position(|&b| b == b':')`. -/
def colonPosition (line : Bytes) : Option Nat := line.findIdx? (· == colonByte)

/-- A `Key: value` line: the trimmed octets before its first `:`, and the first token after it. -/
def keyValue (line : Bytes) : Option (Bytes × Option Bytes) := do
  let colon ← colonPosition line
  let key := trimAscii (line.take colon)
  let valueToken := (asciiTokens (line.drop (colon + 1))).head?
  return (key, valueToken)

/-- The test `b == b':'` fails all along octets without a `:`. -/
theorem beq_colon_of_not_mem {l : Bytes} (hl : colonByte ∉ l) :
    ∀ b ∈ l, (b == colonByte) = false := by
  intro b hb
  rw [beq_eq_false_iff_ne]
  rintro rfl
  exact hl hb

/-- The first `:` of a line that has none in front of it. -/
theorem colonPosition_append {pre : Bytes} (hpre : colonByte ∉ pre) (rest : Bytes) :
    colonPosition (pre ++ colonByte :: rest) = some pre.length :=
  findIdx?_append_cons (beq_colon_of_not_mem hpre) rfl rest

/-- A line without a `:` has no first one. -/
theorem colonPosition_eq_none {line : Bytes} (hline : colonByte ∉ line) :
    colonPosition line = none := List.findIdx?_eq_none_iff.mpr (beq_colon_of_not_mem hline)

/-- What stands behind it. -/
theorem drop_colon (pre rest : Bytes) :
    (pre ++ colonByte :: rest).drop (pre.length + 1) = rest := by
  rw [← List.drop_drop, List.drop_left]
  rfl

/-- A line is read as its key, trimmed, and the first token behind the `:`, if any. -/
theorem keyValue_append {key : Bytes} (hkey : colonByte ∉ key) (text : Bytes) :
    keyValue (key ++ colonByte :: text) = some (trimAscii key, (asciiTokens text).head?) := by
  rw [keyValue, colonPosition_append hkey]
  simp only [Option.bind_eq_bind, Option.bind_some, List.take_left, drop_colon]
  rfl

/-- A line with a key is cut at its first `:`. -/
theorem exists_of_keyValue {line key : Bytes} {token : Option Bytes}
    (h : keyValue line = some (key, token)) :
    ∃ raw text, line = raw ++ colonByte :: text ∧ colonByte ∉ raw ∧ key = trimAscii raw ∧
      token = (asciiTokens text).head? := by
  unfold keyValue at h
  obtain ⟨colon, hposition, h⟩ := Option.bind_eq_some_iff.mp h
  obtain ⟨raw, c, text, rfl, rfl, hraw, hc⟩ := exists_of_findIdx?_eq_some hposition
  obtain rfl := beq_iff_eq.mp hc
  rw [List.take_left, drop_colon] at h
  obtain ⟨rfl, rfl⟩ := Prod.mk.inj (Option.some.inj h)
  have hno_colon : colonByte ∉ raw := fun hmem => absurd (hraw _ hmem) (by simp)
  exact ⟨raw, text, rfl, hno_colon, rfl, rfl⟩

/-! ## Text -/

/-- `char::is_whitespace`: the Unicode property `White_Space`. -/
def isWhitespace (c : Char) : Bool :=
  let n := c.toNat
  (9 ≤ n && n ≤ 13) || n == 0x20 || n == 0x85 || n == 0xA0 || n == 0x1680 ||
    (0x2000 ≤ n && n ≤ 0x200A) || n == 0x2028 || n == 0x2029 || n == 0x202F || n == 0x205F ||
    n == 0x3000

/-- `str::split_whitespace`. -/
def splitWhitespace (cs : List Char) : List (List Char) := tokens isWhitespace cs

/-- `str::trim`. -/
def trimText (cs : List Char) : List Char := trim isWhitespace cs

/-- `line.strip_suffix('\r')` where there is one. -/
def stripCarriageReturn (line : List Char) : List Char :=
  if line.getLast? = some '\r' then line.dropLast else line

/-- `str::lines`: the pieces that end in `\n` lose it and a `\r` in front of it; what is left behind
the last `\n` is a line when it is not empty. -/
def textLines (cs : List Char) : List (List Char) :=
  let pieces := cs.splitOn '\n'
  let last := pieces.getLast?.getD []
  pieces.dropLast.map stripCarriageReturn ++ if last.isEmpty then [] else [last]

/-- A line reader that neither minds a carriage return at the end nor reads anything from an empty
line sees just the pieces between line feeds. -/
theorem filterMap_textLines {β : Type} {read : List Char → Option β}
    (hstrip : ∀ line, read (stripCarriageReturn line) = read line) (hempty : read [] = none)
    (cs : List Char) : (textLines cs).filterMap read = (cs.splitOn '\n').filterMap read := by
  have hmap : ∀ pieces : List (List Char),
      (pieces.map stripCarriageReturn).filterMap read = pieces.filterMap read := by
    intro pieces
    rw [List.filterMap_map]
    exact List.filterMap_congr fun line _ => hstrip line
  have hne : cs.splitOn '\n' ≠ [] := List.splitOn_ne_nil '\n' cs
  unfold textLines
  generalize cs.splitOn '\n' = pieces at hne
  -- only the last piece is treated differently: it keeps its `\r` and is dropped when it is empty
  obtain ⟨init, last, rfl⟩ := List.eq_nil_or_concat' pieces |>.resolve_left hne
  rw [List.filterMap_append, List.dropLast_concat, hmap, List.filterMap_append,
    List.getLast?_concat, Option.getD_some]
  cases last with
  | nil => simp [hempty]
  | cons c last => rfl

/-- `str::parse::<i32>`: an optional sign, then digits whose value fits. -/
def parseStrI32 (s : String) : Option Int32 :=
  (Decimal.signed s.toList).bind fun i =>
    if -2 ^ 31 ≤ i ∧ i < 2 ^ 31 then some (Int32.ofInt i) else none

/-! ## Errors -/

/-- The variants of the crate's error; what they wrap is only ever logged. -/
inductive ProcError where
  | ioError
  | floatError
  | lexicalError
  deriving DecidableEq, Repr

abbrev ProcResult (α : Type) := Except ProcError α

/-! ## Numeric tokens -/

/-- The numeric readers the crate calls: `lexical::parse::<T>` at four types, and the float reader
`str::parse::<f64>` of the standard library. -/
structure Readers where
  u64 : Bytes → Option UInt64
  u32 : Bytes → Option UInt32
  i32 : Bytes → Option Int32
  f64 : Bytes → Option Float
  strF64 : String → Option Float

/-- `lexical::parse(token.unwrap_or_default()).map_err(Into::into)`, at any number type. -/
def parseToken {α : Type} (read : Bytes → Option α) (token : Option Bytes) : ProcResult α :=
  match read (token.getD []) with
  | some value => .ok value
  | none => .error .lexicalError

section

variable (rd : Readers)

def parseU64 (token : Option Bytes) : ProcResult UInt64 := parseToken rd.u64 token

def parseU32 (token : Option Bytes) : ProcResult UInt32 := parseToken rd.u32 token

def parseI32 (token : Option Bytes) : ProcResult Int32 := parseToken rd.i32 token

def parseF64 (token : Option Bytes) : ProcResult Float := parseToken rd.f64 token

end

/-- A missing token is read as the empty one, which is for the reader to refuse. -/
theorem parseToken_eq_ok {α : Type} {read : Bytes → Option α} {token : Option Bytes} {a : α} :
    parseToken read token = .ok a ↔ read (token.getD []) = some a := by
  unfold parseToken
  cases read (token.getD []) <;> simp

/-- There is one error, whatever the token. -/
theorem parseToken_error {α : Type} {read : Bytes → Option α} {token : Option Bytes}
    {err : ProcError} (h : parseToken read token = .error err) : err = .lexicalError := by
  unfold parseToken at h
  split at h
  · cases h
  · exact (Except.error.inj h).symm

/-- The decimal numeral of a `u64`, as the kernel prints it. -/
def decimal (n : UInt64) : Bytes := Decimal.octets (Decimal.numeral n.toNat)

/-- The decimal numeral of an `i32`, as the kernel prints it. -/
def decimalI32 (i : Int32) : Bytes := Decimal.octets (Decimal.intNumeral i.toInt)

/-- What is assumed of `lexical`: it parses the decimal numeral of every number back to it. -/
structure Readers.ReadsDecimals (rd : Readers) : Prop where
  u64_decimal : ∀ n : UInt64, rd.u64 (decimal n) = some n
  i32_decimal : ∀ i : Int32, rd.i32 (decimalI32 i) = some i

/-- What the kernel prints is what is read. -/
theorem parseU64_decimal {rd : Readers} (hrd : rd.ReadsDecimals) (n : UInt64) :
    parseU64 rd (some (decimal n)) = .ok n := by
  simp [parseU64, parseToken, hrd.u64_decimal]

theorem parseI32_decimal {rd : Readers} (hrd : rd.ReadsDecimals) (i : Int32) :
    parseI32 rd (some (decimalI32 i)) = .ok i := by
  simp [parseI32, parseToken, hrd.i32_decimal]

/-! ## A reader with the documented behaviour -/

/-- `lexical` accepts an optional sign and one or more ASCII digits whose value fits. The two float
readers accept nothing: no result below that is about a numeral goes through them. -/
def Readers.documented : Readers where
  u64 bs := (Decimal.unsigned (Decimal.chars bs)).bind fun n =>
    if n < 2 ^ 64 then some (UInt64.ofNat n) else none
  u32 bs := (Decimal.unsigned (Decimal.chars bs)).bind fun n =>
    if n < 2 ^ 32 then some (UInt32.ofNat n) else none
  i32 bs := (Decimal.signed (Decimal.chars bs)).bind fun i =>
    if -2 ^ 31 ≤ i ∧ i < 2 ^ 31 then some (Int32.ofInt i) else none
  f64 _ := none
  strF64 _ := none

/-- The documented behaviour meets the assumption. -/
theorem documented_readsDecimals : Readers.documented.ReadsDecimals where
  u64_decimal n := by
    simp [Readers.documented, decimal, n.toNat_lt]
  i32_decimal i := by
    have hlow : -2 ^ 31 ≤ i.toInt := i.le_toInt
    have hhigh : i.toInt < 2 ^ 31 := i.toInt_lt
    simp only [Readers.documented, decimalI32, Decimal.chars_octets_intNumeral,
      Decimal.signed_intNumeral, Option.bind_some, if_pos (And.intro hlow hhigh),
      Int32.ofInt_toInt]

/-- What is assumed of `lexical` where it matters what it refuses: at the integer types it has the
documented behaviour. -/
structure Readers.ReadsIntegers (rd : Readers) : Prop where
  u64_eq : rd.u64 = Readers.documented.u64
  u32_eq : rd.u32 = Readers.documented.u32
  i32_eq : rd.i32 = Readers.documented.i32

/-- And so is the other one. -/
theorem documented_readsIntegers : Readers.documented.ReadsIntegers := ⟨rfl, rfl, rfl⟩

namespace Readers.ReadsIntegers

variable {rd : Readers}

/-- Who knows all of the reader knows that it reads numerals back. -/
theorem readsDecimals (hrd : rd.ReadsIntegers) : rd.ReadsDecimals where
  u64_decimal n := by
    rw [hrd.u64_eq]
    exact documented_readsDecimals.u64_decimal n
  i32_decimal i := by
    rw [hrd.i32_eq]
    exact documented_readsDecimals.i32_decimal i

/-- A missing token is read like an empty one, which no number is. -/
theorem parseU64_toOption (hrd : rd.ReadsIntegers) (token : Option Bytes) :
    (parseU64 rd token).toOption = token.bind rd.u64 := by
  cases token with
  | none =>
      rw [parseU64, hrd.u64_eq]
      rfl
  | some t =>
      rw [parseU64, parseToken, Option.getD_some, Option.bind_some]
      cases rd.u64 t <;> rfl

/-- The same at a signed type. -/
theorem parseI32_toOption (hrd : rd.ReadsIntegers) (token : Option Bytes) :
    (parseI32 rd token).toOption = token.bind rd.i32 := by
  cases token with
  | none =>
      rw [parseI32, hrd.i32_eq]
      rfl
  | some t =>
      rw [parseI32, parseToken, Option.getD_some, Option.bind_some]
      cases rd.i32 t <;> rfl

/-- No number is empty. -/
theorem u32_nil (hrd : rd.ReadsIntegers) : rd.u32 [] = none := by
  rw [hrd.u32_eq]
  rfl

/-- An octet of a token that is read as a `u32` is `+` or a digit. -/
theorem mem_of_u32 (hrd : rd.ReadsIntegers) {token : Bytes} {n : UInt32}
    (h : rd.u32 token = some n) {b : UInt8} (hb : b ∈ token) :
    Char.ofNat b.toNat = '+' ∨ (Char.ofNat b.toNat).isDigit = true := by
  rw [hrd.u32_eq] at h
  obtain ⟨value, hvalue, -⟩ := Option.bind_eq_some_iff.mp h
  exact Decimal.mem_of_unsigned hvalue (List.mem_map_of_mem hb)

end Readers.ReadsIntegers

/-! ## Numerals and blanks -/

/-- Digits do not separate. -/
theorem isAsciiWhitespace_digit {b : UInt8} (hb : 48 ≤ b.toNat ∧ b.toNat ≤ 57) :
    isAsciiWhitespace b = false := by
  simp only [isAsciiWhitespace, Bool.or_eq_false_iff, beq_eq_false_iff_ne, ne_eq]
  refine ⟨⟨⟨⟨?_, ?_⟩, ?_⟩, ?_⟩, ?_⟩ <;> (rintro rfl; revert hb; decide)

/-- A numeral is a token. -/
theorem decimal_isToken (n : UInt64) : IsToken isAsciiWhitespace (decimal n) where
  ne_nil := Decimal.octets_ne_nil (Decimal.numeral_ne_nil n.toNat)
  no_sep _ hb := isAsciiWhitespace_digit (Decimal.digit_of_mem_octets_numeral hb)

/-- A numeral with a sign is one, too. -/
theorem decimalI32_isToken (i : Int32) : IsToken isAsciiWhitespace (decimalI32 i) where
  ne_nil := Decimal.octets_ne_nil (Decimal.intNumeral_ne_nil i.toInt)
  no_sep b hb := by
    rcases Decimal.mem_octets_intNumeral hb with rfl | hdigit
    · rfl
    · exact isAsciiWhitespace_digit hdigit

/-- Nor do they in text. -/
theorem isWhitespace_digit {c : Char} (hc : c.isDigit = true) : isWhitespace c = false := by
  obtain ⟨hlow, hhigh⟩ := Decimal.isDigit_toNat hc
  simp only [isWhitespace, Bool.or_eq_false_iff, Bool.and_eq_false_iff, beq_eq_false_iff_ne,
    decide_eq_false_iff_not]
  omega

/-- As text, a numeral has the same octets. -/
theorem encode_numeral (n : Nat) :
    Utf8.encode (String.ofList (Decimal.numeral n)) = Decimal.octets (Decimal.numeral n) := by
  have hdigits : ∀ c ∈ Decimal.numeral n, c.isDigit = true := fun c hc =>
    Decimal.isDigit_of_mem_numeral hc
  rw [Utf8.encode, String.toList_ofList, Decimal.octets]
  generalize Decimal.numeral n = cs at hdigits ⊢
  induction cs with
  | nil => rfl
  | cons c cs ih =>
      have hc := Decimal.isDigit_toNat (hdigits c (by simp))
      have hone : String.utf8EncodeChar c = [UInt8.ofNat c.toNat] := by
        have hle : c.val.toNat ≤ 0x7f := hc.2.trans (by decide)
        rw [String.utf8EncodeChar, if_pos hle]
        rfl
      rw [List.flatMap_cons, hone, ih fun d hd => hdigits d (List.mem_cons_of_mem c hd)]
      rfl

end MetricsExporter.Procfs
