/-
# MetricsExporter.Procfs.Diskstats -- `/proc/diskstats`

The parser is as tolerant as that of `/proc/stat`: a line is a device, or it is passed over, and no
content is an error. A device is a line with two numerals, a name, and numerals in the next
seventeen columns as far as there are any. An older kernel prints fewer of them (no discards, no
flushes); the columns it leaves out are 0.

The major and minor numbers have to be numerals and are then dropped, so they are columns of
`PrintedDevice` and no field of `DiskStat`. Of the number reader only `Readers.ReadsDecimals` is
assumed.
-/
import MetricsExporter.Procfs.Table

namespace MetricsExporter.Procfs

open MetricsExporter.Lib

/-- Block-device statistics for one device from `/proc/diskstats`. -/
structure DiskStat where
  name : String
  readsCompleted : UInt64
  readsMerged : UInt64
  sectorsRead : UInt64
  readMs : UInt64
  writesCompleted : UInt64
  writesMerged : UInt64
  sectorsWritten : UInt64
  writeMs : UInt64
  ioInProgress : UInt64
  ioMs : UInt64
  weightedIoMs : UInt64
  discardsCompleted : UInt64
  discardsMerged : UInt64
  sectorsDiscarded : UInt64
  discardMs : UInt64
  flushRequests : UInt64
  flushMs : UInt64
  deriving DecidableEq, Repr

/-- Snapshot of all block-device statistics from `/proc/diskstats`. -/
structure DiskStats where
  disks : List DiskStat
  deriving DecidableEq, Repr

section

variable (rd : Readers)

/-- The body of the loop of `parse_diskstats`; `none` is its `continue`. -/
def parseDiskstatsLine (line : Bytes) : Option DiskStat := do
  let major :: minor :: name :: tokens := asciiTokens line | none
  -- Non-device lines (a stray header) are skipped like any other malformed line.
  let _ ← (parseU64 rd (some major)).toOption
  let _ ← (parseU64 rd (some minor)).toOption
  let fields ← fillFields rd (List.replicate 17 0) tokens
  return {
    name := Utf8.lossy name
    readsCompleted := fields.getD 0 0
    readsMerged := fields.getD 1 0
    sectorsRead := fields.getD 2 0
    readMs := fields.getD 3 0
    writesCompleted := fields.getD 4 0
    writesMerged := fields.getD 5 0
    sectorsWritten := fields.getD 6 0
    writeMs := fields.getD 7 0
    ioInProgress := fields.getD 8 0
    ioMs := fields.getD 9 0
    weightedIoMs := fields.getD 10 0
    discardsCompleted := fields.getD 11 0
    discardsMerged := fields.getD 12 0
    sectorsDiscarded := fields.getD 13 0
    discardMs := fields.getD 14 0
    flushRequests := fields.getD 15 0
    flushMs := fields.getD 16 0 }

/-- `DiskStats::parse_diskstats`. -/
def DiskStats.parseDiskstats (content : Bytes) : DiskStats :=
  { disks := parseLines (parseDiskstatsLine rd) content }

/-- `disk_stats`: read the current block-device statistics. -/
def diskStats : ProcM (ProcResult DiskStats) :=
  fromFile (fun content => .ok (DiskStats.parseDiskstats rd content))
    (linuxProcPath.join "diskstats")

/-- The name a line of `/proc/diskstats` carries: its third token. -/
def diskLineName (line : Bytes) : Option Bytes := (asciiTokens line)[2]?

/-- A device is named by the third token of its line. -/
theorem parseDiskstatsLine_name (line : Bytes) (stat : DiskStat)
    (hrow : parseDiskstatsLine rd line = some stat) :
    ∃ name, diskLineName line = some name ∧ stat.name = Utf8.lossy name := by
  unfold parseDiskstatsLine at hrow
  unfold diskLineName
  split at hrow
  · rename_i major minor name tokens htokens
    simp only [Option.bind_eq_bind, Option.bind_eq_some_iff] at hrow
    obtain ⟨-, -, -, -, fields, -, hstat⟩ := hrow
    obtain rfl := Option.some.inj hstat
    exact ⟨name, by rw [htokens]; rfl, rfl⟩
  · simp at hrow

end

/-! ## The table as the kernel prints it -/

/-- A device as the kernel prints it: its numbers, its name, and as many counters as this kernel
has. -/
structure PrintedDevice where
  major : UInt64
  minor : UInt64
  name : TokenName
  counters : List UInt64

namespace PrintedDevice

/-- The counter in column `i`, counted from 1; 0 beyond the counters printed. -/
def column (d : PrintedDevice) (i : Nat) : UInt64 := d.counters.getD (i - 1) 0

/-- A line of the device: its tokens with at least one blank between two of them. -/
def Renders (d : PrintedDevice) (line : Bytes) : Prop :=
  SpacedBy isAsciiWhitespace
    (decimal d.major :: decimal d.minor :: d.name.octets :: d.counters.map decimal) line

/-- What is read for the device. -/
def stat (d : PrintedDevice) : DiskStat where
  name := d.name.text
  readsCompleted := d.column 1
  readsMerged := d.column 2
  sectorsRead := d.column 3
  readMs := d.column 4
  writesCompleted := d.column 5
  writesMerged := d.column 6
  sectorsWritten := d.column 7
  writeMs := d.column 8
  ioInProgress := d.column 9
  ioMs := d.column 10
  weightedIoMs := d.column 11
  discardsCompleted := d.column 12
  discardsMerged := d.column 13
  sectorsDiscarded := d.column 14
  discardMs := d.column 15
  flushRequests := d.column 16
  flushMs := d.column 17

end PrintedDevice

/-- A line of nothing but blanks. -/
def BlankLine (line : Bytes) : Prop := ∀ b ∈ line, isAsciiWhitespace b = true

section

variable {rd : Readers}

/-- A printed device reads back, whatever the number of its columns. -/
theorem parseDiskstatsLine_rendered (hrd : rd.ReadsDecimals) (d : PrintedDevice) (line : Bytes)
    (h : d.Renders line) : parseDiskstatsLine rd line = some d.stat := by
  have hfields : fillFields rd (List.replicate 17 0) (d.counters.map decimal) =
      some (d.counters.take 17 ++ (List.replicate 17 0).drop d.counters.length) := by
    rw [fillFields_decimals hrd, List.length_replicate]
  have htokens : asciiTokens line =
      decimal d.major :: decimal d.minor :: d.name.octets :: d.counters.map decimal := h.tokens_eq
  unfold parseDiskstatsLine
  simp only [htokens, hfields, parseU64_decimal hrd, Except.toOption, Option.bind_eq_bind,
    Option.bind_some, TokenName.lossy_octets]
  -- the seventeen slots hold the columns printed and zeros behind them
  have hcolumn : ∀ i < 17, (d.counters.take 17 ++
      (List.replicate 17 0).drop d.counters.length).getD i 0 = d.counters.getD i 0 :=
    fun i hi => getD_fields d.counters hi
  simp (disch := decide) only [hcolumn]
  rfl

/-- A line of blanks has no first token and is passed over. -/
theorem parseDiskstatsLine_blank (line : Bytes) (h : BlankLine line) :
    parseDiskstatsLine rd line = none := by
  have htokens : asciiTokens line = [] := tokens_seps h
  unfold parseDiskstatsLine
  rw [htokens]

/-- **`/proc/diskstats` reads back.** The printed devices are read in order with their counters, on
every kernel. -/
theorem parseDiskstats_unlines (hrd : rd.ReadsDecimals) {devices : List PrintedDevice}
    {ls : List Bytes} (htable : Interleaved PrintedDevice.Renders BlankLine devices ls)
    (hlines : ∀ l ∈ ls, newline ∉ l) :
    (DiskStats.parseDiskstats rd (unlines ls)).disks = devices.map PrintedDevice.stat :=
  parseLines_unlines htable hlines (parseDiskstatsLine_rendered hrd) parseDiskstatsLine_blank rfl

end

end MetricsExporter.Procfs
