/-
# MetricsExporter.Procfs.Printed -- what the files show

One relation for each file says which contents print a value: the tables with their rows among other
lines, the keyed files with their lines in any order, the lines with their tokens between any
blanks. Whatever the content, the reader of the file gets the value back, and nothing where there is
no file.

The relations are the format as this exporter relies on it and not the whole of what a kernel
writes: lines the parsers pass over may hold anything, and only the columns that are read are
constrained. A file that no value prints (a table with a malformed row, a required line that is
missing) is outside of what is said here; `Accept` and the modules of the single files speak about
those.
-/
import MetricsExporter.Procfs.Net
import MetricsExporter.Procfs.Diskstats
import MetricsExporter.Procfs.Cpu
import MetricsExporter.Procfs.Loadavg
import MetricsExporter.Procfs.Meminfo
import MetricsExporter.Procfs.Process

namespace MetricsExporter.Procfs

open MetricsExporter.Lib

/-! ## Files that may be missing -/

/-- A file that prints the value, where there is one, is read as it. -/
theorem toOption_fromFile_of_rel {α β : Type} {prints : α → Bytes → Prop}
    {parse : Bytes → ProcResult β} {value : α → β} {o : Option α} {path : Path} {fs : ProcFs}
    (hparse : ∀ a content, prints a content → parse content = .ok (value a))
    (h : Option.Rel prints o (fs.file path)) :
    ((fromFile parse path).eval fs).toOption = o.map value := by
  rw [eval_fromFile]
  generalize fs.file path = file at h
  cases h with
  | none => rfl
  | some hprints =>
      rw [Option.elim_some, hparse _ _ hprints]
      rfl

/-- The same for a reader that has no error to give. -/
theorem bind_of_rel {α β : Type} {prints : α → Bytes → Prop} {read : Bytes → Option β}
    {value : α → β} {o : Option α} {file : Option Bytes}
    (hread : ∀ a content, prints a content → read content = some (value a))
    (h : Option.Rel prints o file) : file.bind read = o.map value := by
  cases h with
  | none => rfl
  | some hprints => exact hread _ _ hprints

/-! ## Tables -/

/-- The lines of the content render the rows in order, among lines that are none. -/
def PrintsTable {ρ : Type} (renders : ρ → Bytes → Prop) (junk : Bytes → Prop) (rows : List ρ)
    (content : Bytes) : Prop :=
  ∃ ls, Interleaved renders junk rows ls ∧ (∀ l ∈ ls, newline ∉ l) ∧ content = unlines ls

/-- The three tables, each with the lines its parser passes over. -/
def PrintedCpu.Print : List PrintedCpu → Bytes → Prop := PrintsTable PrintedCpu.Renders OtherLine

def PrintedIface.Print : List PrintedIface → Bytes → Prop :=
  PrintsTable PrintedIface.Renders (colonByte ∉ ·)

def PrintedDevice.Print : List PrintedDevice → Bytes → Prop :=
  PrintsTable PrintedDevice.Renders BlankLine

section

variable {rd : Readers}

/-- A printed `/proc/stat` has the rows printed, and so have the other two tables. -/
theorem parseStat_of_print (hrd : rd.ReadsDecimals) (cpus : List PrintedCpu) (content : Bytes)
    (h : PrintedCpu.Print cpus content) :
    CpuStat.parseStat rd content = ⟨cpus.map PrintedCpu.times⟩ := by
  obtain ⟨ls, htable, hlines, rfl⟩ := h
  exact congrArg CpuStat.mk (parseStat_unlines hrd htable hlines)

theorem parseDev_of_print (hrd : rd.ReadsDecimals) (devices : List PrintedIface) (content : Bytes)
    (h : PrintedIface.Print devices content) :
    DevStats.parseDev rd content = ⟨devices.map PrintedIface.stats⟩ := by
  obtain ⟨ls, htable, hlines, rfl⟩ := h
  exact congrArg DevStats.mk (parseDev_unlines hrd htable hlines)

theorem parseDiskstats_of_print (hrd : rd.ReadsDecimals) (devices : List PrintedDevice)
    (content : Bytes) (h : PrintedDevice.Print devices content) :
    DiskStats.parseDiskstats rd content = ⟨devices.map PrintedDevice.stat⟩ := by
  obtain ⟨ls, htable, hlines, rfl⟩ := h
  exact congrArg DiskStats.mk (parseDiskstats_unlines hrd htable hlines)

end

/-! ## Lines of tokens -/

/-- The text starts with two numerals between blanks. -/
def Uptime.Prints (rd : Readers) (u : Uptime) (content : Bytes) : Prop :=
  ∃ text uptime idle rest, content = Utf8.encode text ∧
    splitWhitespace text.toList = uptime :: idle :: rest ∧
    rd.strF64 (String.ofList uptime) = some u.uptime ∧
    rd.strF64 (String.ofList idle) = some u.idle

/-- The task token has no second `/`. -/
def LoadAvg.Prints (rd : Readers) (load : LoadAvg) (content : Bytes) : Prop :=
  load.Shows rd content []

/-- A pid, any name between parentheses, and tokens of which the two ticks are the twelfth and the
thirteenth. -/
def Stat.Prints (stat : Stat) (content : Bytes) : Prop :=
  ∃ pid comm tokens rest, SpacedBy isAsciiWhitespace tokens rest ∧
    (∀ t ∈ tokens, closeParen ∉ t) ∧ tokens[11]? = some (decimal stat.utimeTicks) ∧
    tokens[12]? = some (decimal stat.stimeTicks) ∧ content = statLine pid comm rest

/-- A name ends in a line feed. -/
def PrintsComm (comm content : Bytes) : Prop := content = comm ++ [newline]

section

variable {rd : Readers}

/-- A printed `/proc/uptime` is text, and its first two numerals are what is read. -/
theorem Uptime.parse_of_prints {u : Uptime} {content : Bytes} (h : u.Prints rd content) :
    ∃ text, Utf8.strict content = some text ∧ Uptime.parse rd text = .ok u := by
  obtain ⟨text, uptime, idle, rest, rfl, hparts, huptime, hidle⟩ := h
  refine ⟨text, Utf8.strict_encode text, ?_⟩
  unfold Uptime.parse
  simp only [hparts, List.getElem?_cons_zero, List.getElem?_cons_succ, parseUptimePart, huptime,
    hidle]
  rfl

/-- A file that shows an uptime parses to it. -/
theorem toOption_uptime_of_rel {o : Option Uptime} {fs : ProcFs}
    (h : Option.Rel (Uptime.Prints rd) o (fs.file (linuxProcPath.join "uptime"))) :
    ((uptime rd).eval fs).toOption = o := by
  unfold uptime
  rw [ProcM.eval_bind, eval_readToString]
  generalize fs.file (linuxProcPath.join "uptime") = file at h
  cases h with
  | none => rfl
  | some hprints =>
      obtain ⟨text, hstrict, hparse⟩ := Uptime.parse_of_prints hprints
      simp [hstrict, hparse, Except.toOption]

/-- The load average as it was printed. -/
theorem LoadAvg.parseLoadavg_of_prints (hrd : rd.ReadsIntegers) (load : LoadAvg) (content : Bytes)
    (h : load.Prints rd content) : LoadAvg.parseLoadavg rd content = .ok load :=
  (LoadAvg.parseLoadavg_eq_ok hrd).mpr ⟨[], .inl rfl, h⟩

/-- A printed `/proc/<pid>/stat` is read as its two ticks, whatever the name of the process. -/
theorem Stat.parseStat_of_prints (hrd : rd.ReadsDecimals) (stat : Stat) (content : Bytes)
    (h : stat.Prints content) : Stat.parseStat rd content = .ok stat := by
  obtain ⟨pid, comm, tokens, rest, hrest, htokens, hutime, hstime, rfl⟩ := h
  rw [Stat.parseStat_statLine pid comm hrest htokens, Stat.ofTokens, hutime, hstime]
  simp [hrd.u64_decimal]

/-- The comm as it was printed: the one line feed behind it is taken off. -/
theorem stripNewline_of_prints {comm content : Bytes} (h : PrintsComm comm content) :
    stripNewline content = comm := by
  subst h
  simp [stripNewline]

end

/-! ## Keyed files -/

/-- The lines of the required keys and of some others, in any order; the numbers of the keys left
out are 0. -/
def MemInfo.Prints (mem : MemInfo) (content : Bytes) : Prop :=
  ∃ keys, (∀ k ∈ requiredMemKeys, k ∈ keys) ∧ (∀ k, k ∉ keys → mem.value k = 0) ∧
    PrintsTable mem.Renders UnknownMemLine keys content

/-- The lines of all keys, in any order. -/
def Io.Prints (io : Io) (content : Bytes) : Prop :=
  ∃ keys ls, (∀ k, k ∈ keys) ∧ Interleaved io.Renders UnknownIoLine keys ls ∧
    (∀ l ∈ ls, '\n' ∉ l) ∧ content = Utf8.encode (unlinesText ls)

/-- The lines of the required keys and of some others, in any order; the numbers of the keys left
out are 0. -/
def Status.Prints (s : Status) (content : Bytes) : Prop :=
  IsStateOctet s.state ∧ ∃ keys, (∀ k ∈ requiredStatusKeys, k ∈ keys) ∧
    (∀ k, k ∉ keys → s.counter k = 0) ∧ PrintsTable s.Renders UnknownStatusLine keys content

section

variable {rd : Readers}

/-- The memory as it was printed, with 0 for what an older kernel leaves out. -/
theorem MemInfo.parseMeminfo_of_prints (hrd : rd.ReadsDecimals) (mem : MemInfo) (content : Bytes)
    (h : mem.Prints content) : MemInfo.parseMeminfo rd content = .ok mem := by
  obtain ⟨keys, hrequired, hzero, ls, hfile, hlines, rfl⟩ := h
  rw [MemInfo.parseMeminfo_printed hrd mem hrequired hfile hlines]
  have hvalue : ∀ k : MemKey, ((if k ∈ keys then some (mem.value k) else none).getD 0) =
      mem.value k := by
    intro k
    split
    · rfl
    · next hk => exact (hzero k hk).symm
  unfold MemInfo.ofValues
  simp only [hvalue]
  rfl

/-- A printed `/proc/<pid>/io` is text and is read as its counters. -/
theorem Io.parseIo_of_prints (hrd : rd.ReadsDecimals) (io : Io) (content : Bytes)
    (h : io.Prints content) : (Utf8.strict content).map (Io.parseIo rd) = some io := by
  obtain ⟨keys, ls, hkeys, hfile, hlines, rfl⟩ := h
  rw [Utf8.strict_encode, Option.map_some, Io.parseIo_printed hrd io hkeys hfile hlines]

/-- A scan that has seen every line of the file holds the whole status. -/
theorem StatusScan.status_ofSeen {s : Status} {keys : List StatusKey}
    (hrequired : ∀ k ∈ requiredStatusKeys, k ∈ keys) (hzero : ∀ k, k ∉ keys → s.counter k = 0) :
    (StatusScan.ofSeen s keys).status = s := by
  have hvalue : ∀ k : StatusKey, (if k ∈ keys then s.counter k else 0) = s.counter k := by
    intro k
    split
    · rfl
    · next hk => exact (hzero k hk).symm
  simp only [StatusScan.ofSeen, hrequired .pPid (by decide), hrequired .state (by decide), if_true]
  obtain ⟨⟩ := s
  simp only [Status.mk.injEq, true_and]
  exact ⟨hvalue .vmSize, hvalue .vmRSS, hvalue .vmHWM, hvalue .rssAnon, hvalue .rssFile,
    hvalue .rssShmem, hvalue .vmSwap, hvalue .hugetlbPages, hvalue .fdSize, hvalue .threads,
    hvalue .voluntaryCtxtSwitches, hvalue .nonvoluntaryCtxtSwitches⟩

/-- A printed `/proc/<pid>/status` is read as its values: the scan has seen the required keys, and
the others are 0 on both sides. -/
theorem Status.parseStatus_of_prints (hrd : rd.ReadsDecimals) (s : Status) (content : Bytes)
    (h : s.Prints content) : Status.parseStatus rd content = .ok s := by
  obtain ⟨hstate, keys, hrequired, hzero, ls, hfile, hlines, rfl⟩ := h
  rw [Status.parseStatus_printed hrd s hstate hrequired hfile hlines,
    StatusScan.status_ofSeen hrequired hzero]

end

/-! ## Listings -/

/-- The numbered directories of a listing are those of the ids, in order, among entries that cannot
be read, are no directories or have other names. -/
def PrintsListing : List Int32 → List (Option DirEntry) → Prop :=
  Interleaved (fun id entry => entry = some ⟨decimalI32 id, true⟩) fun entry =>
    ∀ e, entry = some e → e.isDir = true → parseStrI32 (Utf8.lossy e.fileName) = none

/-- The name of the directory of an id is read as that id. -/
theorem parseStrI32_lossy_decimalI32 (id : Int32) :
    parseStrI32 (Utf8.lossy (decimalI32 id)) = some id := by
  have hascii : ∀ b ∈ decimalI32 id, b.toNat < 0x80 := by
    intro b hb
    rcases Decimal.mem_octets_intNumeral hb with rfl | hdigit
    · decide
    · omega
  have htext : Utf8.lossy (decimalI32 id) = String.ofList (Decimal.intNumeral id.toInt) := by
    rw [Utf8.lossy, Utf8.decode_ascii hascii, List.map_map, ← Decimal.chars_octets_intNumeral]
    rfl
  have hlow : -2 ^ 31 ≤ id.toInt := id.le_toInt
  have hhigh : id.toInt < 2 ^ 31 := id.toInt_lt
  rw [htext, parseStrI32, String.toList_ofList, Decimal.signed_intNumeral, Option.bind_some,
    if_pos ⟨hlow, hhigh⟩, Int32.ofInt_toInt]

/-- The ids of a listing are those it prints: other entries have no id to give. -/
theorem filterMap_entryPid_of_prints {ids : List Int32} {entries : List (Option DirEntry)}
    (h : PrintsListing ids entries) : entries.filterMap entryPid = ids := by
  have hrow : ∀ id entry, entry = some ⟨decimalI32 id, true⟩ → entryPid entry = some id := by
    rintro id entry rfl
    exact parseStrI32_lossy_decimalI32 id
  have hjunk : ∀ entry : Option DirEntry, (∀ e, entry = some e → e.isDir = true →
      parseStrI32 (Utf8.lossy e.fileName) = none) → entryPid entry = none := by
    intro entry hentry
    cases entry with
    | none => rfl
    | some e =>
        cases hdir : e.isDir with
        | false => simp [entryPid, hdir]
        | true => simp [entryPid, hdir, hentry e rfl hdir]
  have hids : entries.filterMap entryPid = ids.map id := h.filterMap_eq hrow hjunk
  rw [hids, List.map_id]

/-- So are the ids listed in a directory, and none where it cannot be listed. -/
theorem listedPids_of_rel {o : Option (List Int32)} {fs : ProcFs} {root : Path}
    (h : Option.Rel PrintsListing o (fs.dir root)) : listedPids fs root = o := by
  unfold listedPids
  generalize fs.dir root = entries at h
  cases h with
  | none => rfl
  | some hprints => exact congrArg some (filterMap_entryPid_of_prints hprints)

end MetricsExporter.Procfs
