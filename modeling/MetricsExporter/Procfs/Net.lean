/-
# MetricsExporter.Procfs.Net -- `/proc/net/dev`

The parser is tolerant: a line is an interface, or it is passed over, and no content is an error. An
interface is a line with a name before its first `:` and sixteen numerals behind it. Unlike in the
other two tables a column that is missing drops the line; what stands behind the sixteenth is not
looked at. The header lines of the file have no `:` and are passed over like any other line without
one.

`PrintedIface` is the way back, from the numbers to the lines that print them. Of the number reader
only `Readers.ReadsDecimals` is assumed. A name with a `:` in it (an alias such as `eth0:1`) is cut
at its first `:`, so no printed interface has one.
-/
import MetricsExporter.Procfs.Table

namespace MetricsExporter.Procfs

open MetricsExporter.Lib

/-- Statistics for one network interface from `/proc/net/dev`. -/
structure IfaceStats where
  name : String
  rxBytes : UInt64
  rxPackets : UInt64
  rxErrs : UInt64
  rxDrop : UInt64
  rxFifo : UInt64
  rxFrame : UInt64
  rxCompressed : UInt64
  rxMulticast : UInt64
  txBytes : UInt64
  txPackets : UInt64
  txErrs : UInt64
  txDrop : UInt64
  txFifo : UInt64
  txColls : UInt64
  txCarrier : UInt64
  txCompressed : UInt64
  deriving DecidableEq, Repr

/-- Snapshot of all network interface statistics from `/proc/net/dev`. -/
structure DevStats where
  interfaces : List IfaceStats
  deriving DecidableEq, Repr

section

variable (rd : Readers)

/-- `parse_u64(tokens.next())`: the value and the tokens left, nothing on an error. -/
def nextU64 (tokens : List Bytes) : Option (UInt64 × List Bytes) :=
  (parseU64 rd tokens.head?).toOption.map fun value => (value, tokens.tail)

/-- The second half of the body of the loop of `parse_dev`: sixteen columns, any further tokens are
not looked at. -/
def parseColumns (name : String) (tokens : List Bytes) : Option IfaceStats := do
  let (rxBytes, tokens) ← nextU64 rd tokens
  let (rxPackets, tokens) ← nextU64 rd tokens
  let (rxErrs, tokens) ← nextU64 rd tokens
  let (rxDrop, tokens) ← nextU64 rd tokens
  let (rxFifo, tokens) ← nextU64 rd tokens
  let (rxFrame, tokens) ← nextU64 rd tokens
  let (rxCompressed, tokens) ← nextU64 rd tokens
  let (rxMulticast, tokens) ← nextU64 rd tokens
  let (txBytes, tokens) ← nextU64 rd tokens
  let (txPackets, tokens) ← nextU64 rd tokens
  let (txErrs, tokens) ← nextU64 rd tokens
  let (txDrop, tokens) ← nextU64 rd tokens
  let (txFifo, tokens) ← nextU64 rd tokens
  let (txColls, tokens) ← nextU64 rd tokens
  let (txCarrier, tokens) ← nextU64 rd tokens
  let (txCompressed, _) ← nextU64 rd tokens
  return {
    name
    rxBytes, rxPackets, rxErrs, rxDrop, rxFifo, rxFrame, rxCompressed, rxMulticast
    txBytes, txPackets, txErrs, txDrop, txFifo, txColls, txCarrier, txCompressed }

/-- The body of the loop of `parse_dev`; `none` is its `continue`. -/
def parseDevLine (line : Bytes) : Option IfaceStats := do
  let colon ← colonPosition line
  let ifaceName := trimAscii (line.take colon)
  guard (!ifaceName.isEmpty)
  parseColumns rd (Utf8.lossy ifaceName) (asciiTokens (line.drop (colon + 1)))

/-- `DevStats::parse_dev`. -/
def DevStats.parseDev (content : Bytes) : DevStats :=
  { interfaces := parseLines (parseDevLine rd) content }

/-- `dev_stats`: read the current network device statistics. -/
def devStats : ProcM (ProcResult DevStats) :=
  fromFile (fun content => .ok (DevStats.parseDev rd content))
    ((linuxProcPath.join "net").join "dev")

/-- The name a line of `/proc/net/dev` carries: what stands before its first `:`, trimmed, if
anything. -/
def netLineName (line : Bytes) : Option Bytes := do
  let colon ← colonPosition line
  let name := trimAscii (line.take colon)
  guard (!name.isEmpty)
  return name

/-- What holds of every result of a continuation holds of every result of a sequence. -/
theorem forall_of_bind {α β : Type} {P : β → Prop} {o : Option α} {f : α → Option β}
    (h : ∀ a b, f a = some b → P b) : ∀ b, (o >>= f) = some b → P b := by
  intro b hb
  obtain ⟨a, -, ha⟩ := Option.bind_eq_some_iff.mp hb
  exact h a b ha

/-- The columns are read after the name and leave it as it is. -/
theorem parseColumns_name (name : String) (tokens : List Bytes) :
    ∀ stats, parseColumns rd name tokens = some stats → stats.name = name := by
  unfold parseColumns
  -- none of the sixteen columns touches the name
  iterate 16
    apply forall_of_bind
    rintro ⟨value, tokens⟩
  intro stats hstats
  obtain rfl := Option.some.inj hstats
  rfl

/-- An interface is named by what stands before the first `:` of its line, trimmed. -/
theorem parseDevLine_name (line : Bytes) (stats : IfaceStats)
    (hrow : parseDevLine rd line = some stats) :
    ∃ name, netLineName line = some name ∧ stats.name = Utf8.lossy name := by
  unfold parseDevLine at hrow
  obtain ⟨colon, hcolon, hrow⟩ := Option.bind_eq_some_iff.mp hrow
  obtain ⟨u, hnonempty, hrow⟩ := Option.bind_eq_some_iff.mp hrow
  refine ⟨trimAscii (line.take colon), ?_, parseColumns_name rd _ _ stats hrow⟩
  exact Option.bind_eq_some_iff.mpr
    ⟨colon, hcolon, Option.bind_eq_some_iff.mpr ⟨u, hnonempty, rfl⟩⟩

end

/-! ## The table as the kernel prints it -/

/-- An interface as the kernel prints it: a name without `:`, and sixteen counters. -/
structure PrintedIface where
  name : TokenName
  no_colon : ':' ∉ name.text.toList
  counters : List UInt64
  length_counters : counters.length = 16

namespace PrintedIface

/-- The counter in column `i`, counted from 1. -/
def column (d : PrintedIface) (i : Nat) : UInt64 := d.counters.getD (i - 1) 0

/-- A line of the interface: any blanks, the name, `:`, and the numerals of the counters and any
further tokens, with at least one blank between two of them. -/
def Renders (d : PrintedIface) (line : Bytes) : Prop :=
  ∃ pre rest extra, (∀ b ∈ pre, isAsciiWhitespace b = true) ∧
    SpacedBy isAsciiWhitespace (d.counters.map decimal ++ extra) rest ∧
    line = pre ++ (d.name.octets ++ colonByte :: rest)

/-- What is read for the interface. -/
def stats (d : PrintedIface) : IfaceStats where
  name := d.name.text
  rxBytes := d.column 1
  rxPackets := d.column 2
  rxErrs := d.column 3
  rxDrop := d.column 4
  rxFifo := d.column 5
  rxFrame := d.column 6
  rxCompressed := d.column 7
  rxMulticast := d.column 8
  txBytes := d.column 9
  txPackets := d.column 10
  txErrs := d.column 11
  txDrop := d.column 12
  txFifo := d.column 13
  txColls := d.column 14
  txCarrier := d.column 15
  txCompressed := d.column 16

end PrintedIface

section

variable {rd : Readers}

/-- One column of a printed interface is read, and the tokens behind it are left for the next. -/
theorem bind_nextU64_decimal {α : Type} (hrd : rd.ReadsDecimals) (n : UInt64)
    (tokens : List Bytes) (next : UInt64 × List Bytes → Option α) :
    (nextU64 rd (decimal n :: tokens) >>= next) = next (n, tokens) := by
  have hread : nextU64 rd (decimal n :: tokens) = some (n, tokens) := by
    simp [nextU64, parseU64_decimal hrd, Except.toOption]
  rw [hread]
  rfl

/-- Sixteen numerals are the columns, in this order, whatever follows. -/
theorem parseColumns_decimals (hrd : rd.ReadsDecimals) (d : PrintedIface) (extra : List Bytes) :
    parseColumns rd d.name.text (d.counters.map decimal ++ extra) = some d.stats := by
  obtain ⟨name, hcolon, counters, hlength⟩ := d
  match counters, hlength with
  | [c₁, c₂, c₃, c₄, c₅, c₆, c₇, c₈, c₉, c₁₀, c₁₁, c₁₂, c₁₃, c₁₄, c₁₅, c₁₆], _ =>
    unfold parseColumns
    -- each column takes one numeral and leaves the rest
    iterate 16 refine (bind_nextU64_decimal hrd _ _ _).trans ?_
    rfl

/-- A printed interface reads back, with or without a blank behind the `:`. -/
theorem parseDevLine_rendered (hrd : rd.ReadsDecimals) (d : PrintedIface) (line : Bytes)
    (h : d.Renders line) : parseDevLine rd line = some d.stats := by
  obtain ⟨pre, rest, extra, hpre, hrest, rfl⟩ := h
  have hname : colonByte ∉ d.name.octets := by
    intro hb
    obtain ⟨c, hc, hcolon⟩ := Utf8.mem_encode_ascii hb (by decide)
    have hchar : c = ':' := by
      rw [← Char.ofNat_toNat c, hcolon]
      rfl
    exact d.no_colon (hchar ▸ hc)
  -- neither the blanks nor the name hold a `:`, so the first one is that behind the name
  have hcolon : colonPosition (pre ++ d.name.octets ++ colonByte :: rest) =
      some (pre ++ d.name.octets).length := by
    apply colonPosition_append
    intro hb
    rcases List.mem_append.mp hb with hb | hb
    · exact absurd (hpre _ hb) (by decide)
    · exact hname hb
  -- the `:` ends the name, whether or not a blank follows it
  have htrim : trimAscii (pre ++ d.name.octets) = d.name.octets := by
    have hgaps : trimAscii (pre ++ (d.name.octets ++ [])) = d.name.octets :=
      trim_gaps hpre d.name.isToken.no_sep (by simp)
    rwa [List.append_nil] at hgaps
  have hnonempty : d.name.octets.isEmpty = false := by
    rw [List.isEmpty_eq_false_iff]
    exact d.name.isToken.ne_nil
  rw [← List.append_assoc, parseDevLine, hcolon]
  simp only [Option.bind_eq_bind, Option.bind_some, List.take_left, htrim, hnonempty,
    Bool.not_false, guard_true, TokenName.lossy_octets]
  rw [drop_colon, asciiTokens, hrest.tokens_eq]
  exact parseColumns_decimals hrd d extra

/-- A line without a `:` is passed over. -/
theorem parseDevLine_no_colon (line : Bytes) (h : colonByte ∉ line) :
    parseDevLine rd line = none := by
  rw [parseDevLine, colonPosition_eq_none h]
  rfl

/-- **`/proc/net/dev` reads back.** Among any lines without a `:`, the printed interfaces are read
in order with their counters. -/
theorem parseDev_unlines (hrd : rd.ReadsDecimals) {devices : List PrintedIface}
    {ls : List Bytes} (htable : Interleaved PrintedIface.Renders (colonByte ∉ ·) devices ls)
    (hlines : ∀ l ∈ ls, newline ∉ l) :
    (DevStats.parseDev rd (unlines ls)).interfaces = devices.map PrintedIface.stats :=
  parseLines_unlines htable hlines (parseDevLine_rendered hrd) parseDevLine_no_colon rfl

end

end MetricsExporter.Procfs
