/-
# MetricsExporter.Procfs.Cpu -- `/proc/stat`

The parser is tolerant: a line is a row, or it is passed over, and no content is an error. A row is
a line whose first token starts with `cpu` and whose next ten tokens, as far as there are any, are
numerals; a column the kernel does not print is 0, and what stands behind the tenth is not looked
at.

`PrintedCpu` is the other direction, from the numbers of a row to the lines that print it, and
`parseStat_unlines` says that reading undoes printing. The only thing assumed of the number reader
is `Readers.ReadsDecimals`. `CpuTimes::default` and the capacity the source reserves up front are
left out: nothing is computed from them.
-/
import MetricsExporter.Procfs.Table

namespace MetricsExporter.Procfs

open MetricsExporter.Lib

/-- CPU time of one line from `/proc/stat`, in kernel ticks. -/
structure CpuTimes where
  /-- `cpu` for the aggregate, `cpu0`, `cpu1`, ... per core. -/
  name : String
  user : UInt64
  nice : UInt64
  system : UInt64
  idle : UInt64
  iowait : UInt64
  irq : UInt64
  softirq : UInt64
  steal : UInt64
  guest : UInt64
  guestNice : UInt64
  deriving DecidableEq, Repr

/-- Snapshot of all CPU time lines from `/proc/stat`. -/
structure CpuStat where
  cpus : List CpuTimes
  deriving DecidableEq, Repr

section

variable (rd : Readers)

/-- The body of the loop of `CpuStat::parse_stat`; `none` is its `continue`. -/
def parseCpuLine (line : Bytes) : Option CpuTimes := do
  let name :: tokens := asciiTokens line | none
  guard ((bytes "cpu").isPrefixOf name)
  let fields ← fillFields rd (List.replicate 10 0) tokens
  return {
    name := Utf8.lossy name
    user := fields.getD 0 0
    nice := fields.getD 1 0
    system := fields.getD 2 0
    idle := fields.getD 3 0
    iowait := fields.getD 4 0
    irq := fields.getD 5 0
    softirq := fields.getD 6 0
    steal := fields.getD 7 0
    guest := fields.getD 8 0
    guestNice := fields.getD 9 0 }

/-- `CpuStat::parse_stat`. -/
def CpuStat.parseStat (content : Bytes) : CpuStat :=
  { cpus := parseLines (parseCpuLine rd) content }

/-- `cpu_stat`: read the current CPU time statistics. -/
def cpuStat : ProcM (ProcResult CpuStat) :=
  fromFile (fun content => .ok (CpuStat.parseStat rd content)) (linuxProcPath.join "stat")

/-- The name a line of `/proc/stat` carries: its first token. -/
def cpuLineName (line : Bytes) : Option Bytes := (asciiTokens line).head?

/-- A row is named by the first token of its line, so two rows share a name only if two lines do. -/
theorem parseCpuLine_name (line : Bytes) (entry : CpuTimes)
    (hrow : parseCpuLine rd line = some entry) :
    ∃ name, cpuLineName line = some name ∧ entry.name = Utf8.lossy name := by
  unfold parseCpuLine at hrow
  unfold cpuLineName
  cases htokens : asciiTokens line with
  | nil => simp [htokens] at hrow
  | cons name tokens =>
      simp only [htokens, Option.bind_eq_bind, Option.bind_eq_some_iff] at hrow
      obtain ⟨-, -, fields, -, hentry⟩ := hrow
      obtain rfl := Option.some.inj hentry
      exact ⟨name, rfl, rfl⟩

end

/-! ## The table as the kernel prints it -/

/-- A cpu row as the kernel prints it: a name that starts with `cpu`, and as many tick counts as
this kernel has. -/
structure PrintedCpu where
  name : TokenName
  starts_cpu : bytes "cpu" <+: name.octets
  ticks : List UInt64

namespace PrintedCpu

/-- The tick count in column `i`, counted from 1; 0 beyond the counts printed. -/
def column (c : PrintedCpu) (i : Nat) : UInt64 := c.ticks.getD (i - 1) 0

/-- A line of the row: its tokens with at least one blank between two of them. -/
def Renders (c : PrintedCpu) (line : Bytes) : Prop :=
  SpacedBy isAsciiWhitespace (c.name.octets :: c.ticks.map decimal) line

/-- What is read for the row. -/
def times (c : PrintedCpu) : CpuTimes where
  name := c.name.text
  user := c.column 1
  nice := c.column 2
  system := c.column 3
  idle := c.column 4
  iowait := c.column 5
  irq := c.column 6
  softirq := c.column 7
  steal := c.column 8
  guest := c.column 9
  guestNice := c.column 10

end PrintedCpu

/-- A line whose first token, if it has one, does not start with `cpu`. -/
def OtherLine (line : Bytes) : Prop :=
  ∀ token, (asciiTokens line).head? = some token → ¬ bytes "cpu" <+: token

section

variable {rd : Readers}

/-- A printed row reads back, whatever the number of its columns. -/
theorem parseCpuLine_rendered (hrd : rd.ReadsDecimals) (c : PrintedCpu) (line : Bytes)
    (h : c.Renders line) : parseCpuLine rd line = some c.times := by
  have hfields : fillFields rd (List.replicate 10 0) (c.ticks.map decimal) =
      some (c.ticks.take 10 ++ (List.replicate 10 0).drop c.ticks.length) := by
    rw [fillFields_decimals hrd, List.length_replicate]
  have htokens : asciiTokens line = c.name.octets :: c.ticks.map decimal := h.tokens_eq
  have hcpu : (bytes "cpu").isPrefixOf c.name.octets = true :=
    List.isPrefixOf_iff_prefix.mpr c.starts_cpu
  unfold parseCpuLine
  simp only [htokens, hfields, hcpu, guard_true, Option.bind_eq_bind, Option.bind_some,
    TokenName.lossy_octets]
  -- the ten slots hold the columns printed and zeros behind them; read at an index, that is the
  -- column list with its default
  have hcolumn : ∀ i < 10, (c.ticks.take 10 ++
      (List.replicate 10 0).drop c.ticks.length).getD i 0 = c.ticks.getD i 0 :=
    fun i hi => getD_fields c.ticks hi
  simp (disch := decide) only [hcolumn]
  rfl

/-- A line that does not start with `cpu` is passed over. -/
theorem parseCpuLine_other (line : Bytes) (h : OtherLine line) : parseCpuLine rd line = none := by
  unfold parseCpuLine
  cases htokens : asciiTokens line with
  | nil => rfl
  | cons name tokens =>
      have hcpu : (bytes "cpu").isPrefixOf name = false := by
        rw [Bool.eq_false_iff, ne_eq, List.isPrefixOf_iff_prefix]
        exact h name (by rw [htokens]; rfl)
      simp [hcpu]

/-- **`/proc/stat` reads back.** Among any other lines, the printed rows are read in order with
their tick counts. -/
theorem parseStat_unlines (hrd : rd.ReadsDecimals) {cpus : List PrintedCpu} {ls : List Bytes}
    (htable : Interleaved PrintedCpu.Renders OtherLine cpus ls)
    (hlines : ∀ l ∈ ls, newline ∉ l) :
    (CpuStat.parseStat rd (unlines ls)).cpus = cpus.map PrintedCpu.times :=
  parseLines_unlines htable hlines (parseCpuLine_rendered hrd) parseCpuLine_other rfl

end

/-! ## The cores of a host

How many rows there are is a question about the names: one row is the aggregate and every other one
is a core. `ListsCores` states it of a content, and `coreTable` has a content for every number of
cores, so that what is proved under `ListsCores` speaks about every host. -/

/-- The names of the well-formed rows of `/proc/stat`. -/
def cpuNames (rd : Readers) (content : Bytes) : List String :=
  (lines content).filterMap fun line => (parseCpuLine rd line).map CpuTimes.name

/-- `/proc/stat` has the aggregate row and `n` core rows, all of them with distinct names. -/
structure ListsCores (rd : Readers) (content : Bytes) (n : Nat) : Prop where
  nodup : (cpuNames rd content).Nodup
  aggregate : "cpu" ∈ cpuNames rd content
  cores : ((cpuNames rd content).filter (· ≠ "cpu")).length = n

/-- The names of the rows, straight from the content. -/
theorem map_name_parseStat (rd : Readers) (content : Bytes) :
    (CpuStat.parseStat rd content).cpus.map CpuTimes.name = cpuNames rd content := by
  rw [CpuStat.parseStat, parseLines_eq, List.map_filterMap]
  rfl

/-- One row more than there are cores. -/
theorem ListsCores.length_cpus {rd : Readers} {content : Bytes} {n : Nat}
    (h : ListsCores rd content n) : (CpuStat.parseStat rd content).cpus.length = n + 1 := by
  -- distinct names: the aggregate is counted once
  have hone : (cpuNames rd content).countP (· == "cpu") = 1 :=
    List.count_eq_one_of_mem h.nodup h.aggregate
  have hrest : (cpuNames rd content).countP (fun name => ¬ (name == "cpu") = true) = n := by
    rw [List.countP_eq_length_filter, ← h.cores]
    simp
  rw [← List.length_map CpuTimes.name, map_name_parseStat,
    List.length_eq_countP_add_countP (· == "cpu"), hone, hrest, Nat.add_comm]

theorem cpu_ne_empty : "cpu" ≠ "" := by decide

theorem cpu_no_blank : ∀ c ∈ "cpu".toList, c ∉ asciiBlanks := by decide

/-- The name of core `i`. -/
def coreName (i : Nat) : String := "cpu" ++ String.ofList (Decimal.numeral i)

theorem toList_coreName (i : Nat) : (coreName i).toList = "cpu".toList ++ Decimal.numeral i := by
  rw [coreName, String.toList_append]
  exact congrArg ("cpu".toList ++ ·) (String.toList_ofList)

/-- Cores have distinct names, as numerals are distinct. -/
theorem coreName_injective : Function.Injective coreName := by
  intro i j heq
  have hlists := congrArg String.toList heq
  rw [toList_coreName, toList_coreName, List.append_cancel_left_eq] at hlists
  exact Decimal.numeral_injective hlists

/-- No core has the name of the aggregate: a numeral is never empty. -/
theorem coreName_ne (i : Nat) : coreName i ≠ "cpu" := by
  intro heq
  have hlists := congrArg String.toList heq
  rw [toList_coreName] at hlists
  exact Decimal.numeral_ne_nil i (List.append_right_eq_self.mp hlists)

namespace PrintedCpu

/-- The row with one blank in front of each token. -/
def line (c : PrintedCpu) : Bytes := spaced 32 (c.name.octets :: c.ticks.map decimal)

/-- Every token of a row is one: the name by its type, the counts because numerals have no blanks.
-/
theorem isToken_of_mem {c : PrintedCpu} {token : Bytes}
    (htoken : token ∈ c.name.octets :: c.ticks.map decimal) :
    IsToken isAsciiWhitespace token := by
  rcases List.mem_cons.mp htoken with rfl | htoken
  · exact c.name.isToken
  · obtain ⟨ticks, -, rfl⟩ := List.mem_map.mp htoken
    exact decimal_isToken ticks

theorem renders_line (c : PrintedCpu) : c.Renders c.line :=
  spaced_spacedBy rfl fun _ htoken => isToken_of_mem htoken

theorem newline_notMem_line (c : PrintedCpu) : newline ∉ c.line := by
  intro hnewline
  rcases mem_spaced hnewline with hblank | ⟨token, htoken, hmem⟩
  · cases hblank
  · have hsep := (isToken_of_mem htoken).no_sep newline hmem
    cases hsep

/-- The aggregate row, with no time spent. -/
def aggregate : PrintedCpu where
  name := { text := "cpu", ne_empty := cpu_ne_empty, no_blank := cpu_no_blank }
  starts_cpu := List.prefix_rfl
  ticks := [0]

/-- The row of core `i`. -/
def core (i : Nat) : PrintedCpu where
  name := {
    text := coreName i
    ne_empty := by simp [coreName]
    no_blank := by
      intro c hc hblank
      rw [toList_coreName] at hc
      rcases List.mem_append.mp hc with hc | hc
      · exact cpu_no_blank c hc hblank
      · -- a blank of the numeral would be a digit
        have hdigit := Decimal.isDigit_of_mem_numeral hc
        have hnodigit : ∀ blank ∈ asciiBlanks, blank.isDigit = false := by decide
        rw [hnodigit c hblank] at hdigit
        cases hdigit }
  starts_cpu := by
    rw [TokenName.octets, bytes, Utf8.encode, Utf8.encode, toList_coreName, List.flatMap_append]
    exact List.prefix_append _ _
  ticks := [0]

end PrintedCpu

/-- `/proc/stat` of an idle host with `n` cores. -/
def coreTable (n : Nat) : Bytes :=
  unlines ((PrintedCpu.aggregate :: (List.range n).map PrintedCpu.core).map PrintedCpu.line)

/-- The names in the table of `n` cores, by reading back what it prints. -/
theorem cpuNames_coreTable {rd : Readers} (hrd : rd.ReadsDecimals) (n : Nat) :
    cpuNames rd (coreTable n) = "cpu" :: (List.range n).map coreName := by
  have hlines : ∀ l ∈ (PrintedCpu.aggregate :: (List.range n).map PrintedCpu.core).map
      PrintedCpu.line, newline ∉ l := by
    intro l hl
    obtain ⟨c, -, rfl⟩ := List.mem_map.mp hl
    exact c.newline_notMem_line
  rw [← map_name_parseStat, coreTable,
    parseStat_unlines hrd (interleaved_map PrintedCpu.renders_line _) hlines, List.map_map,
    List.map_cons, List.map_map]
  rfl

/-- **Every number of cores occurs.** -/
theorem coreTable_listsCores {rd : Readers} (hrd : rd.ReadsDecimals) (n : Nat) :
    ListsCores rd (coreTable n) n := by
  have hnames := cpuNames_coreTable hrd n
  have hcore : ∀ name ∈ (List.range n).map coreName, name ≠ "cpu" := by
    intro name hname
    obtain ⟨i, -, rfl⟩ := List.mem_map.mp hname
    exact coreName_ne i
  constructor
  · rw [hnames, List.nodup_cons]
    exact ⟨fun hmem => hcore "cpu" hmem rfl, List.nodup_range.map coreName_injective⟩
  · rw [hnames]
    exact List.mem_cons_self
  · rw [hnames, List.filter_cons_of_neg (by simp), List.filter_eq_self.mpr, List.length_map,
      List.length_range]
    intro name hname
    exact decide_eq_true (hcore name hname)

end MetricsExporter.Procfs
