/-
# MetricsExporter.Procfs.Process.Status -- `/proc/<pid>/status`

Unlike `parse_meminfo`, this parser remembers which of its required keys it has seen and refuses a
file in which one of them is missing. The scan of the loop is therefore the fields and four flags;
`StatusScan.ofValues` reads both off the values assigned so far, so that the loop is the same pass
over entries as there (`Status.parseStatus_eq`).

`parseStatus_complete` answers which contents are accepted and from which line each field comes, for
every content; `Status.parseStatus_printed` reads back what the kernel prints. `Status.OfLines` and
`Status.Renders` name the keys themselves and do not go through the patterns of the parser. Fields
of the file that no arm matches on, such as `Name` and `Uid`, are left out, as in the source.
-/
import MetricsExporter.Procfs.KeyedFile

namespace MetricsExporter.Procfs

open MetricsExporter.Lib

/-- Identity, state and memory fields of a task, in the units of the kernel. -/
structure Status where
  ppid : Int32 := 0
  state : Char := '\x00'
  vmSizeKb : UInt64 := 0
  vmRssKb : UInt64 := 0
  vmHwmKb : UInt64 := 0
  rssAnonKb : UInt64 := 0
  rssFileKb : UInt64 := 0
  rssShmemKb : UInt64 := 0
  vmSwapKb : UInt64 := 0
  hugetlbPagesKb : UInt64 := 0
  fdSize : UInt64 := 0
  threads : UInt64 := 0
  voluntaryCtxtSwitches : UInt64 := 0
  nonvoluntaryCtxtSwitches : UInt64 := 0
  deriving DecidableEq, Repr

/-- The keys `parse_status` matches on. -/
inductive StatusKey where
  | pPid
  | state
  | vmSize
  | vmRSS
  | vmHWM
  | rssAnon
  | rssFile
  | rssShmem
  | vmSwap
  | hugetlbPages
  | fdSize
  | threads
  | voluntaryCtxtSwitches
  | nonvoluntaryCtxtSwitches
  deriving DecidableEq, Repr

namespace StatusKey

/-- The pattern of each arm. -/
def text : StatusKey → String
  | pPid => "PPid"
  | state => "State"
  | vmSize => "VmSize"
  | vmRSS => "VmRSS"
  | vmHWM => "VmHWM"
  | rssAnon => "RssAnon"
  | rssFile => "RssFile"
  | rssShmem => "RssShmem"
  | vmSwap => "VmSwap"
  | hugetlbPages => "HugetlbPages"
  | fdSize => "FDSize"
  | threads => "Threads"
  | voluntaryCtxtSwitches => "voluntary_ctxt_switches"
  | nonvoluntaryCtxtSwitches => "nonvoluntary_ctxt_switches"

def all : List StatusKey :=
  [pPid, state, vmSize, vmRSS, vmHWM, rssAnon, rssFile, rssShmem, vmSwap, hugetlbPages, fdSize,
    threads, voluntaryCtxtSwitches, nonvoluntaryCtxtSwitches]

/-- The arm a key selects, if it is not the last one `_ => {}`. -/
def ofBytes (key : Bytes) : Option StatusKey := all.find? fun k => bytes k.text == key

end StatusKey

/-- What the loop of `parse_status` carries: the fields so far and which required ones were seen. -/
structure StatusScan where
  status : Status := {}
  ppidSeen : Bool := false
  stateSeen : Bool := false
  vmSizeSeen : Bool := false
  vmRssSeen : Bool := false
  deriving DecidableEq, Repr

/-- `if let Ok(value) = ... { field = value }`: an optional field keeps its value on an error. -/
def StatusScan.setOk (scan : StatusScan) (value : ProcResult UInt64)
    (set : Status → UInt64 → Status) : StatusScan :=
  match value with
  | .ok v => { scan with status := set scan.status v }
  | .error _ => scan

/-- `required_field_error`: parsing an empty token never succeeds. -/
def requiredFieldError : ProcError := .lexicalError

section

variable (rd : Readers)

/-- The arms of `parse_status` on a value token. -/
def StatusScan.assign (scan : StatusScan) (valueToken : Option Bytes) :
    StatusKey → ProcResult StatusScan
  | .pPid => do
      let ppid ← parseI32 rd valueToken
      return { scan with status := { scan.status with ppid }, ppidSeen := true }
  | .state => do
      -- The state is the first octet of the token, e.g. `S` in `S (sleeping)`.
      let some state := valueToken.bind List.head? | .error requiredFieldError
      return { scan with
        status := { scan.status with state := Char.ofNat state.toNat }, stateSeen := true }
  | .vmSize => do
      let vmSizeKb ← parseU64 rd valueToken
      return { scan with status := { scan.status with vmSizeKb }, vmSizeSeen := true }
  | .vmRSS => do
      let vmRssKb ← parseU64 rd valueToken
      return { scan with status := { scan.status with vmRssKb }, vmRssSeen := true }
  | .vmHWM => .ok (scan.setOk (parseU64 rd valueToken) fun s v => { s with vmHwmKb := v })
  | .rssAnon => .ok (scan.setOk (parseU64 rd valueToken) fun s v => { s with rssAnonKb := v })
  | .rssFile => .ok (scan.setOk (parseU64 rd valueToken) fun s v => { s with rssFileKb := v })
  | .rssShmem => .ok (scan.setOk (parseU64 rd valueToken) fun s v => { s with rssShmemKb := v })
  | .vmSwap => .ok (scan.setOk (parseU64 rd valueToken) fun s v => { s with vmSwapKb := v })
  | .hugetlbPages =>
      .ok (scan.setOk (parseU64 rd valueToken) fun s v => { s with hugetlbPagesKb := v })
  | .fdSize => .ok (scan.setOk (parseU64 rd valueToken) fun s v => { s with fdSize := v })
  | .threads => .ok (scan.setOk (parseU64 rd valueToken) fun s v => { s with threads := v })
  | .voluntaryCtxtSwitches =>
      .ok (scan.setOk (parseU64 rd valueToken) fun s v => { s with voluntaryCtxtSwitches := v })
  | .nonvoluntaryCtxtSwitches =>
      .ok (scan.setOk (parseU64 rd valueToken) fun s v => { s with nonvoluntaryCtxtSwitches := v })

/-- The body of the loop of `parse_status`. -/
def parseStatusLine (scan : StatusScan) (line : Bytes) : ProcResult StatusScan :=
  match keyValue line with
  | none => .ok scan
  | some (key, valueToken) =>
      match StatusKey.ofBytes key with
      | some k => scan.assign rd valueToken k
      | none => .ok scan

/-- `Status::parse_status`. -/
def Status.parseStatus (content : Bytes) : ProcResult Status := do
  let mut scan : StatusScan := {}
  for line in lines content do
    scan ← parseStatusLine rd scan line
  if !scan.ppidSeen || !scan.stateSeen || !scan.vmSizeSeen || !scan.vmRssSeen then
    .error requiredFieldError
  return scan.status

end

/-! ## The fields by their keys -/

/-- The number behind each key that holds a `u64`. -/
def Status.counter (s : Status) : StatusKey → UInt64
  | .pPid | .state => 0
  | .vmSize => s.vmSizeKb
  | .vmRSS => s.vmRssKb
  | .vmHWM => s.vmHwmKb
  | .rssAnon => s.rssAnonKb
  | .rssFile => s.rssFileKb
  | .rssShmem => s.rssShmemKb
  | .vmSwap => s.vmSwapKb
  | .hugetlbPages => s.hugetlbPagesKb
  | .fdSize => s.fdSize
  | .threads => s.threads
  | .voluntaryCtxtSwitches => s.voluntaryCtxtSwitches
  | .nonvoluntaryCtxtSwitches => s.nonvoluntaryCtxtSwitches

/-- The keys `parse_status` insists on. -/
def requiredStatusKeys : List StatusKey := [.pPid, .state, .vmSize, .vmRSS]

def StatusKey.required (k : StatusKey) : Bool := decide (k ∈ requiredStatusKeys)

/-- What a key holds: a number, and behind `State` an octet. -/
abbrev StatusKey.Value : StatusKey → Type
  | .pPid => Int32
  | .state => UInt8
  | .vmSize | .vmRSS | .vmHWM | .rssAnon | .rssFile | .rssShmem | .vmSwap | .hugetlbPages | .fdSize
  | .threads | .voluntaryCtxtSwitches | .nonvoluntaryCtxtSwitches => UInt64

/-- The scan in which each field holds the given value, 0 where there is none. -/
def StatusScan.ofValues (values : Values StatusKey.Value) : StatusScan where
  status :=
    { ppid := (values .pPid).getD (0 : Int32)
      state := (values .state).elim '\x00' fun b : UInt8 => Char.ofNat b.toNat
      vmSizeKb := (values .vmSize).getD (0 : UInt64)
      vmRssKb := (values .vmRSS).getD (0 : UInt64)
      vmHwmKb := (values .vmHWM).getD (0 : UInt64)
      rssAnonKb := (values .rssAnon).getD (0 : UInt64)
      rssFileKb := (values .rssFile).getD (0 : UInt64)
      rssShmemKb := (values .rssShmem).getD (0 : UInt64)
      vmSwapKb := (values .vmSwap).getD (0 : UInt64)
      hugetlbPagesKb := (values .hugetlbPages).getD (0 : UInt64)
      fdSize := (values .fdSize).getD (0 : UInt64)
      threads := (values .threads).getD (0 : UInt64)
      voluntaryCtxtSwitches := (values .voluntaryCtxtSwitches).getD (0 : UInt64)
      nonvoluntaryCtxtSwitches := (values .nonvoluntaryCtxtSwitches).getD (0 : UInt64) }
  ppidSeen := (values .pPid).isSome
  stateSeen := (values .state).isSome
  vmSizeSeen := (values .vmSize).isSome
  vmRssSeen := (values .vmRSS).isSome

/-- What the loop needs of the fourteen patterns: no `:`, no blanks around them, each found at its
own arm. -/
theorem StatusKey.text_spec (k : StatusKey) :
    colonByte ∉ bytes k.text ∧ trimAscii (bytes k.text) = bytes k.text ∧
      StatusKey.ofBytes (bytes k.text) = some k := by
  cases k <;> decide

/-- An arm is selected by its own pattern only. -/
theorem StatusKey.ofBytes_eq_some {key : Bytes} {k : StatusKey} :
    StatusKey.ofBytes key = some k ↔ key = bytes k.text :=
  find?_text_eq_some k.text_spec.2.2

section

variable (rd : Readers)

/-- What an arm reads from a value token. -/
def StatusKey.read (k : StatusKey) (token : Option Bytes) : Option k.Value :=
  match k with
  | .pPid => (parseI32 rd token).toOption
  | .state => token.bind List.head?
  | .vmSize | .vmRSS | .vmHWM | .rssAnon | .rssFile | .rssShmem | .vmSwap | .hugetlbPages | .fdSize
  | .threads | .voluntaryCtxtSwitches | .nonvoluntaryCtxtSwitches => (parseU64 rd token).toOption

/-- **One arm.** It does to the scan what its entry does to the values. -/
theorem StatusScan.assign_ofValues (values : Values StatusKey.Value) (token : Option Bytes)
    (k : StatusKey) :
    (ofValues values).assign rd token k =
      (values.assign StatusKey.required requiredFieldError ⟨k, k.read rd token⟩).map ofValues := by
  cases k with
  | pPid =>
      simp only [assign, StatusKey.read]
      cases hvalue : parseI32 rd token with
      | ok v => rfl
      | error err =>
          obtain rfl := parseToken_error hvalue
          rfl
  | state =>
      simp only [assign, StatusKey.read]
      cases token.bind List.head? with
      | some b => rfl
      | none => rfl
  | vmSize =>
      simp only [assign, StatusKey.read]
      cases hvalue : parseU64 rd token with
      | ok v => rfl
      | error err =>
          obtain rfl := parseToken_error hvalue
          rfl
  | vmRSS =>
      simp only [assign, StatusKey.read]
      cases hvalue : parseU64 rd token with
      | ok v => rfl
      | error err =>
          obtain rfl := parseToken_error hvalue
          rfl
  | _ =>
      simp only [assign, StatusKey.read, setOk]
      cases parseU64 rd token with
      | ok v => rfl
      | error err => rfl

/-- The field a line is about, with what is read for it. -/
def statusEntry : Bytes → Option (Entry StatusKey.Value) :=
  keyedEntry StatusKey.ofBytes (StatusKey.read rd)

/-- One round of the loop does to the scan what the entry of its line does to the values. -/
theorem parseStatusLine_ofValues (values : Values StatusKey.Value) (line : Bytes) :
    parseStatusLine rd (.ofValues values) line =
      (statusEntry rd line).elim (.ok (.ofValues values)) fun e =>
        (values.assign StatusKey.required requiredFieldError e).map StatusScan.ofValues := by
  rw [parseStatusLine, statusEntry, keyedEntry]
  cases keyValue line with
  | none => rfl
  | some entry =>
      obtain ⟨key, token⟩ := entry
      cases hkey : StatusKey.ofBytes key with
      | none => simp [hkey]
      | some k => simp [hkey, StatusScan.assign_ofValues]

/-- The required fields were all seen. -/
def StatusScan.seen (scan : StatusScan) : Bool :=
  scan.ppidSeen && scan.stateSeen && scan.vmSizeSeen && scan.vmRssSeen

/-- The flags are set for the keys that have a value. -/
theorem StatusScan.seen_ofValues (values : Values StatusKey.Value) :
    (ofValues values).seen = true ↔ ∀ k ∈ requiredStatusKeys, (values k).isSome = true := by
  simp [seen, ofValues, requiredStatusKeys, and_assoc]

/-- What `parse_status` makes of the scan. -/
def StatusScan.finish (scan : StatusScan) : ProcResult Status :=
  if scan.seen then .ok scan.status else .error requiredFieldError

/-- **The loop** is a pass over the entries of the lines. -/
theorem Status.parseStatus_eq (content : Bytes) :
    Status.parseStatus rd content =
      (((lines content).filterMap (statusEntry rd)).foldlM
        (Values.assign StatusKey.required requiredFieldError) fun _ => none).bind
          fun values => (StatusScan.ofValues values).finish := by
  unfold Status.parseStatus
  dsimp only
  rw [except_forIn (parseStatusLine rd) (fun _ _ => rfl)]
  -- the scan keeps the values of the keys seen so far, which are none at the start
  have hloop := foldlM_eq_assign (parseStatusLine_ofValues rd) (lines content) fun _ => none
  have hstart : StatusScan.ofValues (fun _ => none) = {} := rfl
  rw [hstart] at hloop
  rw [hloop]
  cases ((lines content).filterMap (statusEntry rd)).foldlM
      (Values.assign StatusKey.required requiredFieldError) fun _ => none with
  | error err => rfl
  | ok values =>
      show (do
        if !(StatusScan.ofValues values).ppidSeen || !(StatusScan.ofValues values).stateSeen ||
            !(StatusScan.ofValues values).vmSizeSeen || !(StatusScan.ofValues values).vmRssSeen then
          .error requiredFieldError
        return (StatusScan.ofValues values).status) = (StatusScan.ofValues values).finish
      -- the test at the end is over the four flags only
      obtain ⟨status, ppidSeen, stateSeen, vmSizeSeen, vmRssSeen⟩ := StatusScan.ofValues values
      cases ppidSeen <;> cases stateSeen <;> cases vmSizeSeen <;> cases vmRssSeen <;> rfl

end

/-! ## Which contents are accepted, and from which lines the fields come -/

section

variable {rd : Readers}

/-- The values an arm accepts. -/
def StatusKey.accepts (rd : Readers) (k : StatusKey) : Bytes → Option k.Value :=
  match k with
  | .pPid => rd.i32
  | .state => List.head?
  | .vmSize | .vmRSS | .vmHWM | .rssAnon | .rssFile | .rssShmem | .vmSwap | .hugetlbPages | .fdSize
  | .threads | .voluntaryCtxtSwitches | .nonvoluntaryCtxtSwitches => rd.u64

/-- An arm reads a token that is there and accepts none that is missing. -/
theorem StatusKey.read_eq (hrd : rd.ReadsIntegers) (k : StatusKey) (token : Option Bytes) :
    k.read rd token = token.bind (k.accepts rd) := by
  cases k with
  | pPid => exact hrd.parseI32_toOption token
  | state => rfl
  | _ => exact hrd.parseU64_toOption token

/-- What the lines of a key hold. -/
abbrev StatusKey.readings (rd : Readers) (k : StatusKey) (content : Bytes) :
    List (Option k.Value) :=
  keyReadings (k.accepts rd) k.text content

/-- The entries for a key hold what its lines hold. -/
theorem readings_statusEntry (hrd : rd.ReadsIntegers) (k : StatusKey) (content : Bytes) :
    readings k ((lines content).filterMap (statusEntry rd)) = k.readings rd content :=
  readings_keyedEntry (fun _ => StatusKey.ofBytes_eq_some) (StatusKey.read_eq hrd k) content

/-- Where no line of a required key has a refused value, each field holds the last value accepted
for its key, and the snapshot is accepted when no required key is without one. -/
theorem Status.parseStatus_of_accepted (hrd : rd.ReadsIntegers) {content : Bytes}
    (h : ∀ k ∈ requiredStatusKeys, none ∉ k.readings rd content) :
    Status.parseStatus rd content =
      (StatusScan.ofValues fun k => lastAccepted (k.readings rd content)).finish := by
  rw [Status.parseStatus_eq, foldlM_assign_of_accepted]
  · simp only [readings_statusEntry hrd, Option.or_none]
    rfl
  · intro k hk
    rw [readings_statusEntry hrd]
    exact h k (of_decide_eq_true hk)

/-- One refused value of a required key is enough for an error, also when another line of the key
has a good one. -/
theorem Status.parseStatus_of_refused (hrd : rd.ReadsIntegers) {content : Bytes} {k : StatusKey}
    (hk : k ∈ requiredStatusKeys) (h : none ∈ k.readings rd content) :
    Status.parseStatus rd content = .error requiredFieldError := by
  rw [← readings_statusEntry hrd] at h
  have hrequired : k.required = true := decide_eq_true hk
  rw [Status.parseStatus_eq, foldlM_assign_of_refused hrequired h]
  rfl

/-- **An accepted snapshot.** Every required key is complete, and the fields hold the last values
accepted. -/
theorem Status.parseStatus_eq_ok (hrd : rd.ReadsIntegers) {content : Bytes} {status : Status} :
    Status.parseStatus rd content = .ok status ↔
      (∀ k ∈ requiredStatusKeys, Complete (k.readings rd content)) ∧
        (StatusScan.ofValues fun k => lastAccepted (k.readings rd content)).status = status := by
  by_cases hrefused : ∃ k ∈ requiredStatusKeys, none ∈ k.readings rd content
  · obtain ⟨k, hk, hnone⟩ := hrefused
    rw [Status.parseStatus_of_refused hrd hk hnone]
    refine iff_of_false (fun h => by cases h) fun ⟨hcomplete, _⟩ => ?_
    exact (hcomplete k hk).accepted hnone
  · have haccepted : ∀ k ∈ requiredStatusKeys, none ∉ k.readings rd content :=
      fun k hk hnone => hrefused ⟨k, hk, hnone⟩
    -- a key with an accepted value is complete, as none of its values is refused here
    have hseen : (StatusScan.ofValues fun k => lastAccepted (k.readings rd content)).seen = true ↔
        ∀ k ∈ requiredStatusKeys, Complete (k.readings rd content) := by
      rw [StatusScan.seen_ofValues]
      refine forall₂_congr fun k hk => ⟨fun hsome => ⟨?_, haccepted k hk⟩, fun hcomplete => ?_⟩
      · intro hnil
        rw [hnil] at hsome
        cases hsome
      · exact lastAccepted_isSome hcomplete.accepted hcomplete.present
    rw [Status.parseStatus_of_accepted hrd haccepted, ← hseen, StatusScan.finish]
    split
    · rename_i h
      simp [h]
    · rename_i h
      simp [h]

/-- What the kernel prints in front of the `:`. -/
def StatusKey.label : StatusKey → String
  | pPid => "PPid"
  | state => "State"
  | vmSize => "VmSize"
  | vmRSS => "VmRSS"
  | vmHWM => "VmHWM"
  | rssAnon => "RssAnon"
  | rssFile => "RssFile"
  | rssShmem => "RssShmem"
  | vmSwap => "VmSwap"
  | hugetlbPages => "HugetlbPages"
  | fdSize => "FDSize"
  | threads => "Threads"
  | voluntaryCtxtSwitches => "voluntary_ctxt_switches"
  | nonvoluntaryCtxtSwitches => "nonvoluntary_ctxt_switches"

/-- The parser matches on what the kernel prints. -/
theorem StatusKey.label_eq_text (k : StatusKey) : k.label = k.text := by
  cases k <;> rfl

/-- A line that no required key has and whose value, if an optional key has it, is no number. -/
def SkippedLine (rd : Readers) (line : Bytes) : Prop :=
  ∀ (k : StatusKey) (token : Option Bytes), keyValue line = some (bytes k.label, token) →
    k ∉ requiredStatusKeys ∧ token.bind rd.u64 = none

/-- A skipped line assigns nothing: it has no entry, or one of an optional key without a value. -/
theorem entry_of_skippedLine (hrd : rd.ReadsIntegers) {line : Bytes} (h : SkippedLine rd line)
    {e : Entry StatusKey.Value} (he : statusEntry rd line = some e) :
    e.1.required = false ∧ e.2 = none := by
  obtain ⟨key, token, hline, k, hof, rfl⟩ : ∃ key token, keyValue line = some (key, token) ∧
      ∃ k, StatusKey.ofBytes key = some k ∧ e = ⟨k, k.read rd token⟩ := by
    rw [statusEntry, keyedEntry] at he
    obtain ⟨⟨key, token⟩, hline, he⟩ := Option.bind_eq_some_iff.mp he
    obtain ⟨k, hof, he⟩ := Option.bind_eq_some_iff.mp he
    exact ⟨key, token, hline, k, hof, (Option.some.inj he).symm⟩
  obtain rfl := StatusKey.ofBytes_eq_some.mp hof
  rw [← k.label_eq_text] at hline
  obtain ⟨hoptional, htoken⟩ := h k token hline
  refine ⟨decide_eq_false hoptional, ?_⟩
  show k.read rd token = none
  rw [StatusKey.read_eq hrd]
  cases k with
  | pPid => exact absurd (by decide) hoptional
  | state => exact absurd (by decide) hoptional
  | _ => exact htoken

/-- A line that is skipped may stand anywhere. -/
theorem Status.parseStatus_skip (hrd : rd.ReadsIntegers) {pre post : List Bytes} {line : Bytes}
    (hlines : ∀ l ∈ pre ++ line :: post, newline ∉ l) (hline : SkippedLine rd line) :
    Status.parseStatus rd (unlines (pre ++ line :: post)) =
      Status.parseStatus rd (unlines (pre ++ post)) := by
  have hlines' : ∀ l ∈ pre ++ post, newline ∉ l := by
    intro l hl
    apply hlines
    simp only [List.mem_append, List.mem_cons] at hl ⊢
    tauto
  rw [Status.parseStatus_eq, Status.parseStatus_eq, filterMap_lines_unlines rfl hlines,
    filterMap_lines_unlines rfl hlines',
    foldlM_assign_skip (fun _ he => entry_of_skippedLine hrd hline he)]

end

/-- Each field of a snapshot comes from the lines of its key: a required one from the last of them,
an optional one from the last that holds a number, and 0 when there is none. -/
structure Status.OfLines (rd : Readers) (content : Bytes) (status : Status) : Prop where
  ppid : (keyReadings rd.i32 "PPid" content).getLast? = some (some status.ppid)
  state : ∃ octet, (keyReadings List.head? "State" content).getLast? = some (some octet) ∧
    status.state = Char.ofNat octet.toNat
  vmSizeKb : (keyReadings rd.u64 "VmSize" content).getLast? = some (some status.vmSizeKb)
  vmRssKb : (keyReadings rd.u64 "VmRSS" content).getLast? = some (some status.vmRssKb)
  vmHwmKb : status.vmHwmKb = (lastAccepted (keyReadings rd.u64 "VmHWM" content)).getD 0
  rssAnonKb : status.rssAnonKb = (lastAccepted (keyReadings rd.u64 "RssAnon" content)).getD 0
  rssFileKb : status.rssFileKb = (lastAccepted (keyReadings rd.u64 "RssFile" content)).getD 0
  rssShmemKb : status.rssShmemKb = (lastAccepted (keyReadings rd.u64 "RssShmem" content)).getD 0
  vmSwapKb : status.vmSwapKb = (lastAccepted (keyReadings rd.u64 "VmSwap" content)).getD 0
  hugetlbPagesKb :
    status.hugetlbPagesKb = (lastAccepted (keyReadings rd.u64 "HugetlbPages" content)).getD 0
  fdSize : status.fdSize = (lastAccepted (keyReadings rd.u64 "FDSize" content)).getD 0
  threads : status.threads = (lastAccepted (keyReadings rd.u64 "Threads" content)).getD 0
  voluntaryCtxtSwitches : status.voluntaryCtxtSwitches =
    (lastAccepted (keyReadings rd.u64 "voluntary_ctxt_switches" content)).getD 0
  nonvoluntaryCtxtSwitches : status.nonvoluntaryCtxtSwitches =
    (lastAccepted (keyReadings rd.u64 "nonvoluntary_ctxt_switches" content)).getD 0

/-- Where the required keys are complete, the last accepted value of each is that of its last line.
-/
theorem Status.ofLines_of_complete {rd : Readers} {content : Bytes}
    (hcomplete : ∀ k ∈ requiredStatusKeys, Complete (k.readings rd content)) :
    OfLines rd content
      (StatusScan.ofValues fun k => lastAccepted (k.readings rd content)).status := by
  -- the four required keys, each with its last value
  obtain ⟨ppid, hppid, hppid_last⟩ := (hcomplete .pPid (by decide)).exists_last
  obtain ⟨octet, hoctet, hoctet_last⟩ := (hcomplete .state (by decide)).exists_last
  obtain ⟨vmSizeKb, hvmSize, hvmSize_last⟩ := (hcomplete .vmSize (by decide)).exists_last
  obtain ⟨vmRssKb, hvmRss, hvmRss_last⟩ := (hcomplete .vmRSS (by decide)).exists_last
  refine ⟨?_, ⟨octet, hoctet_last, ?_⟩, ?_, ?_, rfl, rfl, rfl, rfl, rfl, rfl, rfl, rfl, rfl, rfl⟩
  · simp only [StatusScan.ofValues, hppid]
    exact hppid_last
  · simp only [StatusScan.ofValues, hoctet, Option.elim_some]
  · simp only [StatusScan.ofValues, hvmSize]
    exact hvmSize_last
  · simp only [StatusScan.ofValues, hvmRss]
    exact hvmRss_last

/-- **`parse_status` accepts exactly the complete snapshots**, reads every field from its own lines,
and is not changed by a line it skips, wherever that stands. -/
theorem parseStatus_complete (rd : Readers) (hrd : rd.ReadsIntegers) (content : Bytes) :
    ((∃ status, Status.parseStatus rd content = .ok status) ↔
      Complete (keyReadings rd.i32 "PPid" content) ∧
      Complete (keyReadings List.head? "State" content) ∧
      Complete (keyReadings rd.u64 "VmSize" content) ∧
      Complete (keyReadings rd.u64 "VmRSS" content)) ∧
    (∀ status, Status.parseStatus rd content = .ok status → status.OfLines rd content) ∧
    ∀ (pre post : List Bytes) (line : Bytes), content = unlines (pre ++ post) →
      (∀ l ∈ pre ++ line :: post, newline ∉ l) → SkippedLine rd line →
      Status.parseStatus rd (unlines (pre ++ line :: post)) = Status.parseStatus rd content := by
  refine ⟨?_, ?_, ?_⟩
  · have hkeys : (∀ k ∈ requiredStatusKeys, Complete (k.readings rd content)) ↔
        Complete (StatusKey.pPid.readings rd content) ∧
        Complete (StatusKey.state.readings rd content) ∧
        Complete (StatusKey.vmSize.readings rd content) ∧
        Complete (StatusKey.vmRSS.readings rd content) := by
      simp [requiredStatusKeys]
    simp only [Status.parseStatus_eq_ok hrd, exists_and_left, exists_eq', and_true]
    exact hkeys
  · intro status hok
    obtain ⟨hcomplete, rfl⟩ := (Status.parseStatus_eq_ok hrd).mp hok
    exact Status.ofLines_of_complete hcomplete
  · rintro pre post line rfl hlines hline
    exact Status.parseStatus_skip hrd hlines hline

/-- A small file: `Name` imitates a required key, and `Threads` is malformed. -/
def smallStatusFile : Bytes :=
  bytes "Name:\tVmRSS: 1\nState:\tS (sleeping)\nPPid:\t1\nThreads:\tx\nVmSize:\t8 kB\nVmRSS:\t4 kB"

/-- The imitation and the malformed line are in the way of neither the acceptance nor the fields. -/
theorem parseStatus_complete_small :
    ((∃ status, Status.parseStatus Readers.documented smallStatusFile = .ok status) ↔
      Complete (keyReadings Readers.documented.i32 "PPid" smallStatusFile) ∧
      Complete (keyReadings List.head? "State" smallStatusFile) ∧
      Complete (keyReadings Readers.documented.u64 "VmSize" smallStatusFile) ∧
      Complete (keyReadings Readers.documented.u64 "VmRSS" smallStatusFile)) ∧
    (∀ status, Status.parseStatus Readers.documented smallStatusFile = .ok status →
      status.OfLines Readers.documented smallStatusFile) ∧
    ∀ (pre post : List Bytes) (line : Bytes), smallStatusFile = unlines (pre ++ post) →
      (∀ l ∈ pre ++ line :: post, newline ∉ l) → SkippedLine Readers.documented line →
      Status.parseStatus Readers.documented (unlines (pre ++ line :: post)) =
        Status.parseStatus Readers.documented smallStatusFile :=
  parseStatus_complete Readers.documented documented_readsIntegers smallStatusFile

example : Status.parseStatus Readers.documented smallStatusFile =
    .ok { ppid := 1, state := 'S', vmSizeKb := 8, vmRssKb := 4 } := by decide

/-! ## The file as the kernel prints it -/

/-- A state the kernel prints: one octet that is not blank. -/
def IsStateOctet (c : Char) : Prop :=
  c.toNat < 256 ∧ isAsciiWhitespace (UInt8.ofNat c.toNat) = false

/-- The octets printed for the value of a key. -/
def Status.printed (s : Status) : StatusKey → Bytes
  | .pPid => decimalI32 s.ppid
  | .state => [UInt8.ofNat s.state.toNat]
  | k => decimal (s.counter k)

/-- A `key: value` line: the key, `:`, any blanks, and the value with whatever follows it: a blank
and a unit, say, or behind a state any text at all. -/
def Status.Renders (s : Status) (k : StatusKey) (line : Bytes) : Prop :=
  ∃ gap rest, (∀ b ∈ gap, isAsciiWhitespace b = true) ∧
    (k = .state ∨ Breaks isAsciiWhitespace rest) ∧
    line = bytes k.label ++ colonByte :: (gap ++ (s.printed k ++ rest))

/-- A line whose key is none of the fourteen, or that has no key. -/
def UnknownStatusLine (line : Bytes) : Prop :=
  ∀ key text, line = key ++ colonByte :: text → colonByte ∉ key →
    ∀ k : StatusKey, trimAscii key ≠ bytes k.label

/-- The keys of the lines that are skipped, as one set. -/
theorem unknownStatusLine_iff {line : Bytes} :
    UnknownStatusLine line ↔
      UnknownLine (fun key => ∃ k : StatusKey, key = bytes k.label) line := by
  simp only [UnknownStatusLine, UnknownLine, not_exists, ne_eq]

/-- A `key: text` line of a key that is none of the fourteen, whatever the text. -/
theorem unknownStatusLine_of_key {key : Bytes} (hcolon : colonByte ∉ key)
    (hkey : ∀ k : StatusKey, trimAscii key ≠ bytes k.label) (text : Bytes) :
    UnknownStatusLine (key ++ colonByte :: text) :=
  unknownStatusLine_iff.mpr (unknownLine_of_key hcolon (fun ⟨k, hk⟩ => hkey k hk) text)

/-- The scan after the lines of the keys `seen`. -/
def StatusScan.ofSeen (s : Status) (seen : List StatusKey) : StatusScan where
  status :=
    { ppid := if .pPid ∈ seen then s.ppid else 0
      state := if .state ∈ seen then s.state else '\x00'
      vmSizeKb := if .vmSize ∈ seen then s.vmSizeKb else 0
      vmRssKb := if .vmRSS ∈ seen then s.vmRssKb else 0
      vmHwmKb := if .vmHWM ∈ seen then s.vmHwmKb else 0
      rssAnonKb := if .rssAnon ∈ seen then s.rssAnonKb else 0
      rssFileKb := if .rssFile ∈ seen then s.rssFileKb else 0
      rssShmemKb := if .rssShmem ∈ seen then s.rssShmemKb else 0
      vmSwapKb := if .vmSwap ∈ seen then s.vmSwapKb else 0
      hugetlbPagesKb := if .hugetlbPages ∈ seen then s.hugetlbPagesKb else 0
      fdSize := if .fdSize ∈ seen then s.fdSize else 0
      threads := if .threads ∈ seen then s.threads else 0
      voluntaryCtxtSwitches :=
        if .voluntaryCtxtSwitches ∈ seen then s.voluntaryCtxtSwitches else 0
      nonvoluntaryCtxtSwitches :=
        if .nonvoluntaryCtxtSwitches ∈ seen then s.nonvoluntaryCtxtSwitches else 0 }
  ppidSeen := decide (.pPid ∈ seen)
  stateSeen := decide (.state ∈ seen)
  vmSizeSeen := decide (.vmSize ∈ seen)
  vmRssSeen := decide (.vmRSS ∈ seen)

/-- The values printed, by their keys. -/
def Status.printedValue (s : Status) (k : StatusKey) : k.Value :=
  match k with
  | .pPid => s.ppid
  | .state => UInt8.ofNat s.state.toNat
  | .vmSize => s.vmSizeKb
  | .vmRSS => s.vmRssKb
  | .vmHWM => s.vmHwmKb
  | .rssAnon => s.rssAnonKb
  | .rssFile => s.rssFileKb
  | .rssShmem => s.rssShmemKb
  | .vmSwap => s.vmSwapKb
  | .hugetlbPages => s.hugetlbPagesKb
  | .fdSize => s.fdSize
  | .threads => s.threads
  | .voluntaryCtxtSwitches => s.voluntaryCtxtSwitches
  | .nonvoluntaryCtxtSwitches => s.nonvoluntaryCtxtSwitches

/-- The scan of the values printed for the keys of a file. -/
theorem StatusScan.ofValues_printed {s : Status} (hstate : IsStateOctet s.state)
    (keys : List StatusKey) :
    (ofValues fun k => if k ∈ keys then some (s.printedValue k) else none) = ofSeen s keys := by
  have hgetD : ∀ {α : Type} (p : Prop) [Decidable p] (a d : α),
      (if p then some a else none).getD d = if p then a else d := by
    intro α p _ a d
    split <;> rfl
  have hisSome : ∀ {α : Type} (p : Prop) [Decidable p] (a : α),
      (if p then some a else none).isSome = decide p := by
    intro α p _ a
    by_cases hp : p <;> simp [hp]
  -- a state of one octet is the same character read back
  have hoctet : Char.ofNat (UInt8.ofNat s.state.toNat).toNat = s.state := by
    have hmod : s.state.toNat % 256 = s.state.toNat := Nat.mod_eq_of_lt hstate.1
    simp [hmod]
  have hletter : (if .state ∈ keys then some (UInt8.ofNat s.state.toNat) else none).elim '\x00'
      (fun b => Char.ofNat b.toNat) = if .state ∈ keys then s.state else '\x00' := by
    split
    · exact hoctet
    · rfl
  simp only [ofValues, ofSeen, Status.printedValue, hgetD, hisSome, hletter]

section

variable {rd : Readers}

/-- The first token behind the key: the numeral, or one that starts with the state. -/
theorem head_asciiTokens_printed {s : Status} (hstate : IsStateOctet s.state) {k : StatusKey}
    {gap rest : Bytes} (hgap : ∀ b ∈ gap, isAsciiWhitespace b = true)
    (hrest : k = .state ∨ Breaks isAsciiWhitespace rest) :
    ∃ token, (asciiTokens (gap ++ (s.printed k ++ rest))).head? = some token ∧
      if k = .state then token.head? = (s.printed k).head? else token = s.printed k := by
  rw [asciiTokens, tokens_seps_append hgap]
  by_cases hk : k = .state
  · -- the word behind the state letter may stand right next to it
    subst hk
    obtain ⟨t, ts, htokens⟩ := exists_tokens_cons hstate.2 rest
    refine ⟨UInt8.ofNat s.state.toNat :: t, ?_, rfl⟩
    rw [Status.printed, List.singleton_append, htokens]
    rfl
  · have htoken : IsToken isAsciiWhitespace (s.printed k) := by
      cases k with
      | pPid => exact decimalI32_isToken s.ppid
      | state => exact absurd rfl hk
      | _ => exact decimal_isToken _
    refine ⟨s.printed k, ?_, by rw [if_neg hk]⟩
    rw [tokens_token_append htoken (hrest.resolve_left hk)]
    rfl

/-- A printed line is an entry for its key, with the value printed. -/
theorem statusEntry_rendered (hrd : rd.ReadsDecimals) {s : Status} (hstate : IsStateOctet s.state)
    (k : StatusKey) (line : Bytes) (h : s.Renders k line) :
    statusEntry rd line = some ⟨k, some (s.printedValue k)⟩ := by
  obtain ⟨gap, rest, hgap, hrest, rfl⟩ := h
  rw [k.label_eq_text]
  obtain ⟨hno_colon, htrim, hof⟩ := k.text_spec
  obtain ⟨token, hhead, htoken⟩ := head_asciiTokens_printed hstate hgap hrest
  have hline := keyValue_append hno_colon (gap ++ (s.printed k ++ rest))
  rw [hhead, htrim] at hline
  rw [statusEntry, keyedEntry_of_keyValue hline hof]
  refine congrArg (fun r => some (Sigma.mk k r)) ?_
  cases k with
  | pPid =>
      obtain rfl : token = decimalI32 s.ppid := htoken
      rw [StatusKey.read, parseI32_decimal hrd]
      rfl
  | state => exact htoken
  | _ =>
      obtain rfl : token = decimal _ := htoken
      rw [StatusKey.read, parseU64_decimal hrd]
      rfl

/-- A line of no known key is none. -/
theorem statusEntry_unknown (line : Bytes) (h : UnknownStatusLine line) :
    statusEntry rd line = none :=
  keyedEntry_unknown (unknownStatusLine_iff.mp h)
    fun _ k hkey => ⟨k, by rw [k.label_eq_text]; exact StatusKey.ofBytes_eq_some.mp hkey⟩

/-- **`/proc/<pid>/status` reads back.** Whatever the order of its lines, whatever other lines stand
among them and whichever optional lines are left out, the values printed are the values read, and
those left out are 0. -/
theorem Status.parseStatus_printed (hrd : rd.ReadsDecimals) (s : Status)
    (hstate : IsStateOctet s.state) {keys : List StatusKey}
    (hrequired : ∀ k ∈ requiredStatusKeys, k ∈ keys) {ls : List Bytes}
    (hfile : Interleaved s.Renders UnknownStatusLine keys ls) (hlines : ∀ l ∈ ls, newline ∉ l) :
    Status.parseStatus rd (unlines ls) = .ok (StatusScan.ofSeen s keys).status := by
  have hentries : ls.filterMap (statusEntry rd) = givenEntries s.printedValue keys :=
    hfile.filterMap_eq (statusEntry_rendered hrd hstate) statusEntry_unknown
  have hseen : ∀ k ∈ requiredStatusKeys, decide (k ∈ keys) = true := fun k hk =>
    decide_eq_true (hrequired k hk)
  rw [Status.parseStatus_eq, filterMap_lines_unlines rfl hlines, hentries, foldlM_givenEntries]
  show (StatusScan.ofValues fun k => _).finish = _
  rw [StatusScan.ofValues_printed hstate]
  simp only [StatusScan.finish, StatusScan.seen, StatusScan.ofSeen, hseen .pPid (by decide),
    hseen .state (by decide), hseen .vmSize (by decide), hseen .vmRSS (by decide), Bool.and_self,
    if_true]

end

end MetricsExporter.Procfs
