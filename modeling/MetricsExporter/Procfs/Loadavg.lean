/-
# MetricsExporter.Procfs.Loadavg -- `/proc/loadavg` and `/proc/uptime`

Both files are one line of tokens, and both parsers are strict in the tokens they look at: a missing
or malformed one is the error of the whole file. `LoadAvg.Shows` says what a content holds, without
the parser, and `LoadAvg.parseLoadavg_eq_ok` which contents the parser accepts: those, and one kind
more.

How a float is read is left to `Readers.f64` and `Readers.strF64`, of which nothing is assumed;
integers are read as `Readers.ReadsIntegers` has it. `/proc/uptime` is read as text, so its content
has to be UTF-8, and a missing number is 0 there and no error.
-/
import MetricsExporter.Lib.Loops
import MetricsExporter.Procfs.Fs

namespace MetricsExporter.Procfs

open MetricsExporter.Lib

/-- Load averages and task statistics from `/proc/loadavg`. -/
structure LoadAvg where
  load1 : Float
  load5 : Float
  load15 : Float
  running : UInt32
  total : UInt32
  lastPid : UInt32

/-- System uptime from `/proc/uptime`. -/
structure Uptime where
  uptime : Float
  idle : Float

section

variable (rd : Readers)

/-- The task token `running/total`: whatever stands behind a second `/` is not looked at. -/
def parseTasks (token : Option Bytes) : ProcResult (UInt32 × UInt32) := do
  let parts := (token.getD []).splitOn 47
  let running ← parseU32 rd parts[0]?
  let total ← parseU32 rd parts[1]?
  return (running, total)

/-- `LoadAvg::parse_loadavg`. -/
def LoadAvg.parseLoadavg (content : Bytes) : ProcResult LoadAvg := do
  let tokens := asciiTokens content
  let load1 ← parseF64 rd tokens[0]?
  let load5 ← parseF64 rd tokens[1]?
  let load15 ← parseF64 rd tokens[2]?
  let (running, total) ← parseTasks rd tokens[3]?
  let lastPid ← parseU32 rd tokens[4]?
  return { load1, load5, load15, running, total, lastPid }

/-- `loadavg`: read the current load averages. -/
def loadavg : ProcM (ProcResult LoadAvg) :=
  fromFile (LoadAvg.parseLoadavg rd) (linuxProcPath.join "loadavg")

/-- `part.parse::<f64>()?` where there is a part, the default where there is none. -/
def parseUptimePart (part : Option (List Char)) : ProcResult Float :=
  match part with
  | none => .ok 0
  | some cs =>
      match rd.strF64 (String.ofList cs) with
      | some ts => .ok ts
      | none => .error .floatError

/-- The text parsed by `Uptime::from_file`. -/
def Uptime.parse (content : String) : ProcResult Uptime := do
  let parts := splitWhitespace content.toList
  let uptime ← parseUptimePart rd parts[0]?
  let idle ← parseUptimePart rd parts[1]?
  return { uptime, idle }

/-- `uptime`: read the current uptime. -/
def uptime : ProcM (ProcResult Uptime) := do
  match ← readToString (linuxProcPath.join "uptime") with
  | .ok content => return Uptime.parse rd content
  | .error err => return .error err

end

/-! ## Which contents of `/proc/loadavg` are accepted -/

/-- The octet `b'/'`. -/
def slash : UInt8 := 47

/-- The first five tokens of the content are three floats, the task token `running/total` with
`tail` behind it, and the last pid, and these are the numbers of `load`. -/
def LoadAvg.Shows (rd : Readers) (content tail : Bytes) (load : LoadAvg) : Prop :=
  ∃ load1 load5 load15 running total lastPid rest,
    asciiTokens content =
      load1 :: load5 :: load15 :: (running ++ slash :: (total ++ tail)) :: lastPid :: rest ∧
    rd.f64 load1 = some load.load1 ∧ rd.f64 load5 = some load.load5 ∧
    rd.f64 load15 = some load.load15 ∧ rd.u32 running = some load.running ∧
    rd.u32 total = some load.total ∧ rd.u32 lastPid = some load.lastPid

section

variable {rd : Readers}

/-- A numeral has no `/` in it. -/
theorem slash_notMem (hrd : rd.ReadsIntegers) {token : Bytes} {n : UInt32}
    (h : rd.u32 token = some n) : slash ∉ token := by
  intro hmem
  rcases hrd.mem_of_u32 h hmem with hplus | hdigit
  · exact absurd hplus (by decide)
  · exact absurd hdigit (by decide)

/-- A missing token is no numeral. -/
theorem exists_of_parseU32 (hrd : rd.ReadsIntegers) {token : Option Bytes} {n : UInt32}
    (h : parseU32 rd token = .ok n) : ∃ t, token = some t ∧ rd.u32 t = some n := by
  have hread := parseToken_eq_ok.mp h
  cases token with
  | some t => exact ⟨t, rfl, hread⟩
  | none =>
      rw [Option.getD_none, hrd.u32_nil] at hread
      cases hread

/-- A list with a fifth element has four before it. -/
theorem exists_of_getElem?_four {α : Type} {l : List α} {e : α} (h : l[4]? = some e) :
    ∃ a b c d rest, l = a :: b :: c :: d :: e :: rest := by
  obtain ⟨hlength, rfl⟩ := List.getElem?_eq_some_iff.mp h
  match l, hlength with
  | a :: b :: c :: d :: e :: rest, _ => exact ⟨a, b, c, d, rest, rfl⟩

/-- The second `/` of a task token, if it has one, ends its total. -/
theorem splitOn_total {total tail : Bytes} (htotal : slash ∉ total)
    (htail : tail = [] ∨ ∃ extra, tail = slash :: extra) :
    ((total ++ tail).splitOn slash).head? = some total := by
  rcases htail with rfl | ⟨extra, rfl⟩
  · rw [List.append_nil, List.splitOn_eq_singleton htotal]
    rfl
  · rw [List.splitOn_append_cons_self_of_not_mem htotal]
    rfl

/-- A text up to its first `/`, and what is left. -/
theorem exists_splitOn (text : Bytes) :
    ∃ part tail, text = part ++ tail ∧ (tail = [] ∨ ∃ extra, tail = slash :: extra) ∧
      (text.splitOn slash).head? = some part := by
  by_cases hmem : slash ∈ text
  · obtain ⟨part, extra, rfl, hpart⟩ := List.eq_append_cons_of_mem hmem
    refine ⟨part, slash :: extra, rfl, .inr ⟨extra, rfl⟩, ?_⟩
    rw [List.splitOn_append_cons_self_of_not_mem hpart]
    rfl
  · refine ⟨text, [], (List.append_nil text).symm, .inl rfl, ?_⟩
    rw [List.splitOn_eq_singleton hmem]
    rfl

/-- A text with two parts is cut behind the first and ends, or is cut again, behind the second. -/
theorem exists_of_splitOn {text first second : Bytes}
    (hfirst : (text.splitOn slash)[0]? = some first)
    (hsecond : (text.splitOn slash)[1]? = some second) :
    ∃ tail, text = first ++ slash :: (second ++ tail) ∧
      (tail = [] ∨ ∃ extra, tail = slash :: extra) := by
  by_cases hmem : slash ∈ text
  · obtain ⟨part, rest, rfl, hpart⟩ := List.eq_append_cons_of_mem hmem
    rw [List.splitOn_append_cons_self_of_not_mem hpart] at hfirst hsecond
    obtain rfl : part = first := Option.some.inj hfirst
    obtain ⟨part', tail, rfl, htail, hhead⟩ := exists_splitOn rest
    rw [List.getElem?_cons_succ, ← List.head?_eq_getElem?, hhead] at hsecond
    obtain rfl : part' = second := Option.some.inj hsecond
    exact ⟨tail, rfl, htail⟩
  · rw [List.splitOn_eq_singleton hmem] at hsecond
    cases hsecond

/-- **The task token.** Two numerals with a `/` between them, and then its end or a second `/`. -/
theorem parseTasks_eq_ok (hrd : rd.ReadsIntegers) {token : Option Bytes}
    {numbers : UInt32 × UInt32} :
    parseTasks rd token = .ok numbers ↔ ∃ running total tail,
      token = some (running ++ slash :: (total ++ tail)) ∧
        (tail = [] ∨ ∃ extra, tail = slash :: extra) ∧
        rd.u32 running = some numbers.1 ∧ rd.u32 total = some numbers.2 := by
  constructor
  · intro h
    obtain ⟨first, hfirst, h⟩ := except_bind_eq_ok.mp h
    obtain ⟨second, hsecond, h⟩ := except_bind_eq_ok.mp h
    obtain rfl := Except.ok.inj h
    obtain ⟨running, hrunning, hread⟩ := exists_of_parseU32 hrd hfirst
    obtain ⟨total, htotal, hread'⟩ := exists_of_parseU32 hrd hsecond
    obtain ⟨tail, htext, htail⟩ := exists_of_splitOn hrunning htotal
    refine ⟨running, total, tail, ?_, htail, hread, hread'⟩
    cases token with
    | none => simp at htext
    | some text => exact congrArg some htext
  · rintro ⟨running, total, tail, rfl, htail, hrunning, htotal⟩
    have hsecond := splitOn_total (slash_notMem hrd htotal) htail
    rw [List.head?_eq_getElem?] at hsecond
    have hsplit : (running ++ slash :: (total ++ tail)).splitOn slash =
        running :: (total ++ tail).splitOn slash :=
      List.splitOn_append_cons_self_of_not_mem (slash_notMem hrd hrunning) _
    unfold parseTasks
    refine except_bind_eq_ok.mpr ⟨numbers.1, ?_, except_bind_eq_ok.mpr ⟨numbers.2, ?_, rfl⟩⟩
    · show parseToken rd.u32 ((running ++ slash :: (total ++ tail)).splitOn slash)[0]? = _
      rw [hsplit]
      exact parseToken_eq_ok.mpr hrunning
    · show parseToken rd.u32 ((running ++ slash :: (total ++ tail)).splitOn slash)[1]? = _
      rw [hsplit, List.getElem?_cons_succ, hsecond]
      exact parseToken_eq_ok.mpr htotal

/-- **What `parse_loadavg` accepts**: also a task token with a second `/` and whatever behind it. -/
theorem LoadAvg.parseLoadavg_eq_ok (hrd : rd.ReadsIntegers) {content : Bytes} {load : LoadAvg} :
    LoadAvg.parseLoadavg rd content = .ok load ↔
      ∃ tail, (tail = [] ∨ ∃ extra, tail = slash :: extra) ∧ load.Shows rd content tail := by
  unfold LoadAvg.parseLoadavg
  constructor
  · intro h
    obtain ⟨load1, hload1, h⟩ := except_bind_eq_ok.mp h
    obtain ⟨load5, hload5, h⟩ := except_bind_eq_ok.mp h
    obtain ⟨load15, hload15, h⟩ := except_bind_eq_ok.mp h
    obtain ⟨numbers, hnumbers, h⟩ := except_bind_eq_ok.mp h
    obtain ⟨lastPid, hlastPid, h⟩ := except_bind_eq_ok.mp h
    obtain rfl := Except.ok.inj h
    obtain ⟨running, total, tail, htasks, htail, hrunning, htotal⟩ :=
      (parseTasks_eq_ok hrd).mp hnumbers
    -- the last pid is the fifth token, so the four before it are there
    obtain ⟨pid, hpid, hread⟩ := exists_of_parseU32 hrd hlastPid
    obtain ⟨t1, t5, t15, tasks, rest, htokens⟩ := exists_of_getElem?_four hpid
    rw [htokens] at hload1 hload5 hload15 htasks
    obtain rfl := Option.some.inj htasks
    exact ⟨tail, htail, t1, t5, t15, running, total, pid, rest, htokens,
      parseToken_eq_ok.mp hload1, parseToken_eq_ok.mp hload5, parseToken_eq_ok.mp hload15,
      hrunning, htotal, hread⟩
  · rintro ⟨tail, htail, load1, load5, load15, running, total, lastPid, rest, htokens, hload1,
      hload5, hload15, hrunning, htotal, hlastPid⟩
    have htasks : parseTasks rd (some (running ++ slash :: (total ++ tail))) =
        .ok (load.running, load.total) :=
      (parseTasks_eq_ok hrd).mpr ⟨running, total, tail, rfl, htail, hrunning, htotal⟩
    rw [htokens]
    exact except_bind_eq_ok.mpr ⟨_, parseToken_eq_ok.mpr hload1,
      except_bind_eq_ok.mpr ⟨_, parseToken_eq_ok.mpr hload5,
      except_bind_eq_ok.mpr ⟨_, parseToken_eq_ok.mpr hload15,
      except_bind_eq_ok.mpr ⟨_, htasks,
      except_bind_eq_ok.mpr ⟨_, parseToken_eq_ok.mpr hlastPid, rfl⟩⟩⟩⟩⟩

/-- Each `/` behind the total is one more in the task token. -/
theorem LoadAvg.Shows.count_slash (hrd : rd.ReadsIntegers) {content tail : Bytes} {load : LoadAvg}
    (h : load.Shows rd content tail) :
    (asciiTokens content)[3]?.map (List.count slash) = some (tail.count slash + 1) := by
  obtain ⟨load1, load5, load15, running, total, lastPid, rest, htokens, -, -, -, hrunning, htotal,
    -⟩ := h
  have hrunning := List.count_eq_zero_of_not_mem (slash_notMem hrd hrunning)
  have htotal := List.count_eq_zero_of_not_mem (slash_notMem hrd htotal)
  have htasks : (running ++ slash :: (total ++ tail)).count slash = tail.count slash + 1 := by
    rw [List.count_append, List.count_cons_self, List.count_append, hrunning, htotal]
    omega
  rw [htokens]
  exact congrArg some htasks

end

/-- What the comment of `parse_loadavg` promises of a content: it is accepted exactly when the first
five tokens are well-formed, and then the snapshot holds their numbers. -/
def StrictLoadavg (rd : Readers) (content : Bytes) : Prop :=
  ∀ load, LoadAvg.parseLoadavg rd content = .ok load ↔ load.Shows rd content []

/-- **When `parse_loadavg` is strict.** It is on every content but those that are well-formed up to
a second `/` in the task token: nobody looks at what the second iterator has left. -/
theorem strictLoadavg_iff (rd : Readers) (hrd : rd.ReadsIntegers) (content : Bytes) :
    StrictLoadavg rd content ↔ ¬ ∃ load extra, LoadAvg.Shows rd content (slash :: extra) load := by
  constructor
  · rintro hstrict ⟨load, extra, hshows⟩
    have hok := (LoadAvg.parseLoadavg_eq_ok hrd).mpr ⟨slash :: extra, .inr ⟨extra, rfl⟩, hshows⟩
    -- strictness would show the same token with one `/` and with two
    have hcount := ((hstrict load).mp hok).count_slash hrd
    rw [hshows.count_slash hrd, List.count_cons_self, List.count_nil] at hcount
    have hzero := Option.some.inj hcount
    omega
  · intro hextra load
    rw [LoadAvg.parseLoadavg_eq_ok hrd]
    constructor
    · rintro ⟨tail, rfl | ⟨extra, rfl⟩, hshows⟩
      · exact hshows
      · exact absurd ⟨load, extra, hshows⟩ hextra
    · intro hshows
      exact ⟨[], .inl rfl, hshows⟩

/-- The documented readers, and a float reader that knows the numeral of zero. -/
def zeroReaders : Readers :=
  { Readers.documented with f64 := fun token => if token = bytes "0" then some 0 else none }

theorem zeroReaders_readsIntegers : zeroReaders.ReadsIntegers := ⟨rfl, rfl, rfl⟩

/-- A task token with three parts. -/
def threePartTasks : Bytes := bytes "0 0 0 1/123/9 4567\n"

/-- The condition, where the fourth token has a second `/`. -/
theorem strictLoadavg_iff_threePartTasks :
    StrictLoadavg zeroReaders threePartTasks ↔
      ¬ ∃ load extra, LoadAvg.Shows zeroReaders threePartTasks (slash :: extra) load :=
  strictLoadavg_iff zeroReaders zeroReaders_readsIntegers threePartTasks

/-- It is accepted. -/
theorem threePartTasks_accepted :
    LoadAvg.parseLoadavg zeroReaders threePartTasks =
        .ok { load1 := 0, load5 := 0, load15 := 0, running := 1, total := 123, lastPid := 4567 } ∧
      ¬ StrictLoadavg zeroReaders threePartTasks := by
  refine ⟨rfl, fun hstrict => ?_⟩
  have hcount := ((hstrict _).mp rfl).count_slash zeroReaders_readsIntegers
  exact absurd hcount (by decide)

end MetricsExporter.Procfs
