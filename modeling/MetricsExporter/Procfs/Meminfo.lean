/-
# MetricsExporter.Procfs.Meminfo -- `/proc/meminfo`

Three questions are asked of the parser, in this order: what its loop computes
(`MemInfo.parseMeminfo_eq`, a pass over the entries of the lines), which contents it accepts and how
that compares with its comment (`wholeOrNothing_iff`), and whether it reads back what the kernel
prints (`MemInfo.parseMeminfo_printed`).

The comment says that a missing required field fails the snapshot, and nothing in the loop looks for
one, so the second answer is a condition and no equivalence with the comment. The values stay in the
units of the file; the collectors convert them. Integers are read as `Readers.ReadsIntegers` has it,
and for what is printed `Readers.ReadsDecimals` is enough.
-/
import MetricsExporter.Procfs.KeyedFile

namespace MetricsExporter.Procfs

open MetricsExporter.Lib

/-- Snapshot of `/proc/meminfo`, in the units of the kernel. -/
structure MemInfo where
  memTotalKb : UInt64 := 0
  memFreeKb : UInt64 := 0
  memAvailableKb : UInt64 := 0
  swapTotalKb : UInt64 := 0
  swapFreeKb : UInt64 := 0
  hugePagesTotal : UInt64 := 0
  hugePagesFree : UInt64 := 0
  hugePageSizeKb : UInt64 := 0
  deriving DecidableEq, Repr

/-- The keys `parse_meminfo` matches on. -/
inductive MemKey where
  | memTotal
  | memFree
  | memAvailable
  | swapTotal
  | swapFree
  | hugePagesTotal
  | hugePagesFree
  | hugepagesize
  deriving DecidableEq, Repr

namespace MemKey

/-- The pattern of each arm. -/
def text : MemKey → String
  | memTotal => "MemTotal"
  | memFree => "MemFree"
  | memAvailable => "MemAvailable"
  | swapTotal => "SwapTotal"
  | swapFree => "SwapFree"
  | hugePagesTotal => "HugePages_Total"
  | hugePagesFree => "HugePages_Free"
  | hugepagesize => "Hugepagesize"

def all : List MemKey :=
  [memTotal, memFree, memAvailable, swapTotal, swapFree, hugePagesTotal, hugePagesFree,
    hugepagesize]

/-- The arm a key selects, if it is not the last one `_ => {}`. -/
def ofBytes (key : Bytes) : Option MemKey := all.find? fun k => bytes k.text == key

end MemKey

/-- `is_required`: whether `key` is one of the required fields. -/
def isRequired (key : Bytes) : Bool :=
  key == bytes "MemTotal" || key == bytes "MemFree" || key == bytes "SwapTotal" ||
    key == bytes "SwapFree"

/-- The assignment of each arm of `parse_meminfo`. -/
def MemInfo.set (mem : MemInfo) (value : UInt64) : MemKey → MemInfo
  | .memTotal => { mem with memTotalKb := value }
  | .memFree => { mem with memFreeKb := value }
  | .memAvailable => { mem with memAvailableKb := value }
  | .swapTotal => { mem with swapTotalKb := value }
  | .swapFree => { mem with swapFreeKb := value }
  | .hugePagesTotal => { mem with hugePagesTotal := value }
  | .hugePagesFree => { mem with hugePagesFree := value }
  | .hugepagesize => { mem with hugePageSizeKb := value }

section

variable (rd : Readers)

/-- The body of the loop of `parse_meminfo`: the value is read before the key is looked at. -/
def parseMeminfoLine (mem : MemInfo) (line : Bytes) : ProcResult MemInfo :=
  match keyValue line with
  | none => .ok mem
  | some (key, valueToken) =>
      match parseU64 rd valueToken with
      | .error err => if isRequired key then .error err else .ok mem
      | .ok value =>
          match MemKey.ofBytes key with
          | some k => .ok (mem.set value k)
          | none => .ok mem

/-- `MemInfo::parse_meminfo`. -/
def MemInfo.parseMeminfo (content : Bytes) : ProcResult MemInfo := do
  let mut mem : MemInfo := {}
  for line in lines content do
    mem ← parseMeminfoLine rd mem line
  return mem

/-- `meminfo`: read the current memory statistics. -/
def meminfo : ProcM (ProcResult MemInfo) :=
  fromFile (MemInfo.parseMeminfo rd) (linuxProcPath.join "meminfo")

end

/-! ## The fields by their keys -/

/-- The field of each arm. -/
def MemInfo.value (mem : MemInfo) : MemKey → UInt64
  | .memTotal => mem.memTotalKb
  | .memFree => mem.memFreeKb
  | .memAvailable => mem.memAvailableKb
  | .swapTotal => mem.swapTotalKb
  | .swapFree => mem.swapFreeKb
  | .hugePagesTotal => mem.hugePagesTotal
  | .hugePagesFree => mem.hugePagesFree
  | .hugepagesize => mem.hugePageSizeKb

/-- The snapshot in which each field holds the given value, 0 where there is none. -/
def MemInfo.ofValues (values : Values fun _ : MemKey => UInt64) : MemInfo where
  memTotalKb := (values .memTotal).getD 0
  memFreeKb := (values .memFree).getD 0
  memAvailableKb := (values .memAvailable).getD 0
  swapTotalKb := (values .swapTotal).getD 0
  swapFreeKb := (values .swapFree).getD 0
  hugePagesTotal := (values .hugePagesTotal).getD 0
  hugePagesFree := (values .hugePagesFree).getD 0
  hugePageSizeKb := (values .hugepagesize).getD 0

/-- Each field of the snapshot is the value given for its key. -/
theorem MemInfo.value_ofValues (values : Values fun _ : MemKey => UInt64) (k : MemKey) :
    (ofValues values).value k = (values k).getD 0 := by
  cases k <;> rfl

/-- An arm of the loop puts a value in the place of its key and leaves the others. -/
theorem MemInfo.set_ofValues (values : Values fun _ : MemKey => UInt64) (v : UInt64)
    (k : MemKey) : (ofValues values).set v k = ofValues (Function.update values k (some v)) := by
  cases k <;> rfl

/-- The keys of the required fields. -/
def requiredMemKeys : List MemKey := [.memTotal, .memFree, .swapTotal, .swapFree]

def MemKey.required (k : MemKey) : Bool := decide (k ∈ requiredMemKeys)

/-- What the loop needs of the eight patterns: no `:`, no blanks around them, each found at its own
arm, and the required ones those of `is_required`. -/
theorem MemKey.text_spec (k : MemKey) :
    colonByte ∉ bytes k.text ∧ trimAscii (bytes k.text) = bytes k.text ∧
      MemKey.ofBytes (bytes k.text) = some k ∧
      isRequired (bytes k.text) = k.required := by
  cases k <;> decide

/-- An arm is selected by its own pattern only. -/
theorem MemKey.ofBytes_eq_some {key : Bytes} {k : MemKey} :
    MemKey.ofBytes key = some k ↔ key = bytes k.text :=
  find?_text_eq_some k.text_spec.2.2.1

/-- Only a key that is matched on can be required. -/
theorem isRequired_of_ofBytes_eq_none {key : Bytes} (h : MemKey.ofBytes key = none) :
    isRequired key = false := by
  rw [Bool.eq_false_iff]
  intro hrequired
  simp only [isRequired, Bool.or_eq_true, beq_iff_eq] at hrequired
  rcases hrequired with ((rfl | rfl) | rfl) | rfl <;> exact absurd h (by decide)

section

variable (rd : Readers)

/-- The field a line is about, with the number read for it. -/
def memEntry : Bytes → Option (Entry fun _ : MemKey => UInt64) :=
  keyedEntry MemKey.ofBytes fun _ token => (parseU64 rd token).toOption

/-- One round of the loop does to the snapshot what the entry of its line does to the values. -/
theorem parseMeminfoLine_ofValues (values : Values fun _ : MemKey => UInt64) (line : Bytes) :
    parseMeminfoLine rd (.ofValues values) line =
      (memEntry rd line).elim (.ok (.ofValues values)) fun e =>
        (values.assign MemKey.required .lexicalError e).map MemInfo.ofValues := by
  rw [parseMeminfoLine, memEntry]
  cases hline : keyValue line with
  | none => simp [keyedEntry, hline]
  | some entry =>
      obtain ⟨key, token⟩ := entry
      cases hkey : MemKey.ofBytes key with
      | none =>
          have hrequired := isRequired_of_ofBytes_eq_none hkey
          have hentry : keyedEntry MemKey.ofBytes
              (fun _ token => (parseU64 rd token).toOption) line = none := by
            simp [keyedEntry, hline, hkey]
          -- the number is read all the same, but an error of a key that is not matched on is passed
          -- over
          cases hvalue : parseU64 rd token <;> simp [hkey, hrequired, hentry, hvalue]
      | some k =>
          obtain rfl := MemKey.ofBytes_eq_some.mp hkey
          rw [keyedEntry_of_keyValue hline hkey, Option.elim_some]
          cases hvalue : parseU64 rd token with
          | ok v =>
              simp only [hvalue, hkey, MemInfo.set_ofValues]
              rfl
          | error err =>
              obtain rfl := parseToken_error hvalue
              simp only [hvalue, k.text_spec.2.2.2]
              cases hk : k.required <;> simp [hk, Values.assign, Except.toOption, Except.map]

/-- **The loop** is a pass over the entries of the lines. -/
theorem MemInfo.parseMeminfo_eq (content : Bytes) :
    MemInfo.parseMeminfo rd content =
      (((lines content).filterMap (memEntry rd)).foldlM
        (Values.assign MemKey.required .lexicalError) fun _ => none).map MemInfo.ofValues := by
  unfold MemInfo.parseMeminfo
  dsimp only
  rw [except_forIn (parseMeminfoLine rd) (fun _ _ => rfl), bind_pure]
  exact foldlM_eq_assign (parseMeminfoLine_ofValues rd) (lines content) fun _ => none

end

/-! ## Which contents are accepted -/

section

variable {rd : Readers}

/-- The entries for a key hold what its lines hold, which no longer mentions the loop. -/
theorem readings_memEntry (hrd : rd.ReadsIntegers) (k : MemKey) (content : Bytes) :
    readings k ((lines content).filterMap (memEntry rd)) =
      keyReadings rd.u64 k.text content :=
  readings_keyedEntry (fun _ => MemKey.ofBytes_eq_some) hrd.parseU64_toOption content

/-- Where no line of a required key has a refused value, the snapshot is accepted: a line that is
not there is not missed. -/
theorem MemInfo.parseMeminfo_of_accepted (hrd : rd.ReadsIntegers) {content : Bytes}
    (h : ∀ k ∈ requiredMemKeys, none ∉ keyReadings rd.u64 k.text content) :
    MemInfo.parseMeminfo rd content =
      .ok (.ofValues fun k => lastAccepted (keyReadings rd.u64 k.text content)) := by
  rw [MemInfo.parseMeminfo_eq, foldlM_assign_of_accepted]
  · simp only [readings_memEntry hrd, Option.or_none]
    rfl
  · intro k hk
    rw [readings_memEntry hrd]
    exact h k (of_decide_eq_true hk)

/-- One refused value of a required key is enough for an error, wherever its line stands. -/
theorem MemInfo.parseMeminfo_of_refused (hrd : rd.ReadsIntegers) {content : Bytes} {k : MemKey}
    (hk : k ∈ requiredMemKeys) (h : none ∈ keyReadings rd.u64 k.text content) :
    MemInfo.parseMeminfo rd content = .error .lexicalError := by
  rw [← readings_memEntry hrd] at h
  have hrequired : k.required = true := decide_eq_true hk
  rw [MemInfo.parseMeminfo_eq, foldlM_assign_of_refused hrequired h]
  rfl

end

/-- What the kernel prints in front of the `:`. -/
def MemKey.label : MemKey → String
  | memTotal => "MemTotal"
  | memFree => "MemFree"
  | memAvailable => "MemAvailable"
  | swapTotal => "SwapTotal"
  | swapFree => "SwapFree"
  | hugePagesTotal => "HugePages_Total"
  | hugePagesFree => "HugePages_Free"
  | hugepagesize => "Hugepagesize"

/-- The parser matches on what the kernel prints. -/
theorem MemKey.label_eq_text (k : MemKey) : k.label = k.text := by
  cases k <;> rfl

/-- What the comment of `parse_meminfo` says of a content: it is accepted exactly when each required
key has a line and every such line a number, and then each field holds the last number accepted for
its key, an optional one 0 when there is none. -/
structure WholeOrNothing (rd : Readers) (content : Bytes) : Prop where
  accepts : (∃ mem, MemInfo.parseMeminfo rd content = .ok mem) ↔
    ∀ k ∈ requiredMemKeys, Complete (keyReadings rd.u64 k.label content)
  required : ∀ mem, MemInfo.parseMeminfo rd content = .ok mem → ∀ k ∈ requiredMemKeys,
    lastAccepted (keyReadings rd.u64 k.label content) = some (mem.value k)
  optional : ∀ mem, MemInfo.parseMeminfo rd content = .ok mem → ∀ k ∉ requiredMemKeys,
    mem.value k = (lastAccepted (keyReadings rd.u64 k.label content)).getD 0

section

variable {rd : Readers}

/-- A refused value of a required key is an error, as the comment has it. -/
theorem wholeOrNothing_of_refused (hrd : rd.ReadsIntegers) {content : Bytes} {k : MemKey}
    (hk : k ∈ requiredMemKeys) (h : none ∈ keyReadings rd.u64 k.label content) :
    WholeOrNothing rd content := by
  rw [k.label_eq_text] at h
  have herror := MemInfo.parseMeminfo_of_refused hrd hk h
  have hnot_ok : ∀ mem, MemInfo.parseMeminfo rd content ≠ .ok mem := by
    intro mem hmem
    rw [herror] at hmem
    cases hmem
  refine ⟨iff_of_false ?_ ?_, ?_, ?_⟩
  · rintro ⟨mem, hmem⟩
    exact hnot_ok mem hmem
  · intro hcomplete
    rw [← k.label_eq_text] at h
    exact (hcomplete k hk).accepted h
  · intro mem hmem
    exact absurd hmem (hnot_ok mem)
  · intro mem hmem
    exact absurd hmem (hnot_ok mem)

/-- So is a snapshot in which the required keys have lines and all these a number. -/
theorem wholeOrNothing_of_complete (hrd : rd.ReadsIntegers) {content : Bytes}
    (h : ∀ k ∈ requiredMemKeys, Complete (keyReadings rd.u64 k.label content)) :
    WholeOrNothing rd content := by
  simp only [MemKey.label_eq_text] at h
  have hok := MemInfo.parseMeminfo_of_accepted hrd fun k hk => (h k hk).accepted
  refine ⟨iff_of_true ⟨_, hok⟩ (by simpa only [MemKey.label_eq_text] using h), ?_, ?_⟩
  · intro mem hmem k hk
    obtain rfl := Except.ok.inj (hok.symm.trans hmem)
    obtain ⟨v, hv⟩ := Option.isSome_iff_exists.mp
      (lastAccepted_isSome (h k hk).accepted (h k hk).present)
    rw [k.label_eq_text, MemInfo.value_ofValues, hv, Option.getD_some]
  · intro mem hmem k _
    obtain rfl := Except.ok.inj (hok.symm.trans hmem)
    rw [k.label_eq_text]
    exact MemInfo.value_ofValues _ k

end

/-- **When `parse_meminfo` keeps to its comment.** It does exactly when each required key has a
line, or a line of a required key has a refused value: the loop looks at the lines that are there,
and nothing asks afterwards which were not. -/
theorem wholeOrNothing_iff (rd : Readers) (hrd : rd.ReadsIntegers) (content : Bytes) :
    WholeOrNothing rd content ↔
      (∀ k ∈ requiredMemKeys, keyReadings rd.u64 k.label content ≠ []) ∨
        ∃ k ∈ requiredMemKeys, none ∈ keyReadings rd.u64 k.label content := by
  by_cases hrefused : ∃ k ∈ requiredMemKeys, none ∈ keyReadings rd.u64 k.label content
  · obtain ⟨k, hk, hnone⟩ := hrefused
    exact iff_of_true (wholeOrNothing_of_refused hrd hk hnone) (.inr ⟨k, hk, hnone⟩)
  · have haccepted : ∀ k ∈ requiredMemKeys, none ∉ keyReadings rd.u64 k.label content :=
      fun k hk hnone => hrefused ⟨k, hk, hnone⟩
    rw [or_iff_left hrefused]
    constructor
    · -- nothing is refused, so the content is accepted, and then each line must be there
      intro h k hk
      have hok := MemInfo.parseMeminfo_of_accepted hrd fun k hk => by
        rw [← k.label_eq_text]
        exact haccepted k hk
      exact (h.accepts.mp ⟨_, hok⟩ k hk).present
    · intro hpresent
      exact wholeOrNothing_of_complete hrd fun k hk => ⟨hpresent k hk, haccepted k hk⟩

/-- A snapshot without a `SwapFree` line. -/
def noSwapFree : Bytes := bytes "MemTotal: 8 kB\nMemFree: 4 kB\nSwapTotal: 2 kB\n"

/-- The condition, where a required line is missing and none is refused. -/
theorem wholeOrNothing_iff_noSwapFree :
    WholeOrNothing Readers.documented noSwapFree ↔
      (∀ k ∈ requiredMemKeys, keyReadings Readers.documented.u64 k.label noSwapFree ≠ []) ∨
        ∃ k ∈ requiredMemKeys, none ∈ keyReadings Readers.documented.u64 k.label noSwapFree :=
  wholeOrNothing_iff Readers.documented documented_readsIntegers noSwapFree

/-- It is accepted, with free swap space 0. -/
theorem noSwapFree_accepted :
    MemInfo.parseMeminfo Readers.documented noSwapFree =
        .ok { memTotalKb := 8, memFreeKb := 4, swapTotalKb := 2 } ∧
      ¬ WholeOrNothing Readers.documented noSwapFree := by
  have hok : MemInfo.parseMeminfo Readers.documented noSwapFree =
      .ok { memTotalKb := 8, memFreeKb := 4, swapTotalKb := 2 } := by decide
  refine ⟨hok, fun h => ?_⟩
  have hcomplete := h.accepts.mp ⟨_, hok⟩ .swapFree (by decide)
  exact hcomplete.present (by decide)

/-! ## The file as the kernel prints it -/

/-- A line of a key: its number, and a unit or nothing behind it. -/
def MemInfo.Renders (mem : MemInfo) (k : MemKey) (line : Bytes) : Prop :=
  KeyLine k.label (decimal (mem.value k)) line

/-- A line whose key is none of the eight, or that has no key. -/
def UnknownMemLine : Bytes → Prop := UnknownLine fun key => ∃ k : MemKey, key = bytes k.label

section

variable {rd : Readers}

/-- A printed line is an entry for its key, with the number printed. -/
theorem memEntry_rendered (hrd : rd.ReadsDecimals) (mem : MemInfo) (k : MemKey) (line : Bytes)
    (h : mem.Renders k line) : memEntry rd line = some ⟨k, some (mem.value k)⟩ := by
  obtain ⟨hno_colon, htrim, hof, -⟩ := k.text_spec
  rw [MemInfo.Renders, k.label_eq_text] at h
  have hline := keyValue_keyLine hno_colon htrim (decimal_isToken (mem.value k)) h
  rw [memEntry, keyedEntry_of_keyValue hline hof, parseU64_decimal hrd]
  rfl

/-- A line of no known key is none. -/
theorem memEntry_unknown (line : Bytes) (h : UnknownMemLine line) : memEntry rd line = none :=
  keyedEntry_unknown h fun _ k hkey =>
    ⟨k, by rw [k.label_eq_text]; exact MemKey.ofBytes_eq_some.mp hkey⟩

/-- **`/proc/meminfo` reads back.** Whatever the order of its lines, whatever other lines stand
among them and whichever optional lines are left out, the numbers printed are the numbers read, and
those left out are 0. -/
theorem MemInfo.parseMeminfo_printed (hrd : rd.ReadsDecimals) (mem : MemInfo) {keys : List MemKey}
    (hrequired : ∀ k ∈ requiredMemKeys, k ∈ keys) {ls : List Bytes}
    (hfile : Interleaved mem.Renders UnknownMemLine keys ls) (hlines : ∀ l ∈ ls, newline ∉ l) :
    MemInfo.parseMeminfo rd (unlines ls) =
      .ok (.ofValues fun k => if k ∈ keys then some (mem.value k) else none) := by
  -- a file of no lines would print no required key
  have hne : ls ≠ [] := by
    rintro rfl
    cases hfile
    exact absurd (hrequired .memTotal (by decide)) List.not_mem_nil
  have hentries : ls.filterMap (memEntry rd) = givenEntries mem.value keys :=
    hfile.filterMap_eq (memEntry_rendered hrd mem) memEntry_unknown
  rw [MemInfo.parseMeminfo_eq, lines_unlines hlines hne, hentries, foldlM_givenEntries]
  rfl

end

end MetricsExporter.Procfs
