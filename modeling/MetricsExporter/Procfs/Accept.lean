/-
# MetricsExporter.Procfs.Accept -- which rows the tolerant parsers read

The parsers of the three tables skip what they cannot read. The grammar of a row is stated here of
its line alone, for every line there is, and `tables_accept` says that the rows of a table are those
of its well-formed lines, one for each and in their order, and no others.

`Line` does not mention the parsers: it cuts the line into a name and numerals and leaves the rest
of the line free. What counts as a numeral is `Readers.u64`, so the grammar is that of the number
reader at this one point. Nothing is said about contents that a kernel would not print, other than
that the statement covers them.
-/
import MetricsExporter.Procfs.Net
import MetricsExporter.Procfs.Diskstats
import MetricsExporter.Procfs.Cpu

namespace MetricsExporter.Procfs

open MetricsExporter.Lib

/-! ## The grammar of a row -/

/-- The tokens are numerals of the values. -/
def Numerals (rd : Readers) : List Bytes → List UInt64 → Prop :=
  List.Forall₂ fun token value => rd.u64 token = some value

/-- The columns hold the numbers of as many tokens as there are columns, and 0 where there is no
token. Further tokens may be anything. -/
structure Fills (rd : Readers) (tokens : List Bytes) (columns : List UInt64) : Prop where
  numerals : Numerals rd (tokens.take columns.length) (columns.take tokens.length)
  rest : ∀ value ∈ columns.drop tokens.length, value = 0

/-- The columns of a row, in the order of the file. -/
def IfaceStats.columns (stats : IfaceStats) : List UInt64 :=
  [stats.rxBytes, stats.rxPackets, stats.rxErrs, stats.rxDrop, stats.rxFifo, stats.rxFrame,
    stats.rxCompressed, stats.rxMulticast, stats.txBytes, stats.txPackets, stats.txErrs,
    stats.txDrop, stats.txFifo, stats.txColls, stats.txCarrier, stats.txCompressed]

/-- All counters of a row, in the order of the columns. -/
def DiskStat.columns (stat : DiskStat) : List UInt64 :=
  [stat.readsCompleted, stat.readsMerged, stat.sectorsRead, stat.readMs, stat.writesCompleted,
    stat.writesMerged, stat.sectorsWritten, stat.writeMs, stat.ioInProgress, stat.ioMs,
    stat.weightedIoMs, stat.discardsCompleted, stat.discardsMerged, stat.sectorsDiscarded,
    stat.discardMs, stat.flushRequests, stat.flushMs]

/-- All times of a row, in the order of the columns. -/
def CpuTimes.columns (entry : CpuTimes) : List UInt64 :=
  [entry.user, entry.nice, entry.system, entry.idle, entry.iowait, entry.irq, entry.softirq,
    entry.steal, entry.guest, entry.guestNice]

/-- A name that is not blank, the first `:`, and sixteen numerals with anything behind them. -/
def IfaceStats.Line (rd : Readers) (stats : IfaceStats) (line : Bytes) : Prop :=
  ∃ name rest numerals extra, line = name ++ colonByte :: rest ∧ colonByte ∉ name ∧
    trimAscii name ≠ [] ∧ stats.name = Utf8.lossy (trimAscii name) ∧
    asciiTokens rest = numerals ++ extra ∧ Numerals rd numerals stats.columns

/-- Two numerals, a name, and up to seventeen numerals with anything behind them. -/
def DiskStat.Line (rd : Readers) (stat : DiskStat) (line : Bytes) : Prop :=
  ∃ major minor name counters, asciiTokens line = major :: minor :: name :: counters ∧
    (rd.u64 major).isSome = true ∧ (rd.u64 minor).isSome = true ∧ stat.name = Utf8.lossy name ∧
    Fills rd counters stat.columns

/-- A name that starts with `cpu`, and up to ten numerals with anything behind them. -/
def CpuTimes.Line (rd : Readers) (entry : CpuTimes) (line : Bytes) : Prop :=
  ∃ name ticks, asciiTokens line = name :: ticks ∧ bytes "cpu" <+: name ∧
    entry.name = Utf8.lossy name ∧ Fills rd ticks entry.columns

/-- The rows of the lines that have one, in the order of the lines. -/
inductive RowsOf {ρ : Type} (Line : ρ → Bytes → Prop) : List Bytes → List ρ → Prop
  | nil : RowsOf Line [] []
  | row {r line rows rest} (hrow : Line r line) (hrest : RowsOf Line rest rows) :
      RowsOf Line (line :: rest) (r :: rows)
  | skip {line rows rest} (hskip : ∀ r, ¬ Line r line) (hrest : RowsOf Line rest rows) :
      RowsOf Line (line :: rest) rows

section

variable {rd : Readers}

/-- A loop over the lines reads the rows of a grammar if one round reads the row of a line exactly
when the grammar has it. -/
theorem parseLines_eq_iff {ρ : Type} {row : Bytes → Option ρ} {Line : ρ → Bytes → Prop}
    (h : ∀ r line, row line = some r ↔ Line r line) {content : Bytes} {rows : List ρ} :
    parseLines row content = rows ↔ RowsOf Line (lines content) rows := by
  rw [parseLines_eq]
  generalize lines content = ls
  constructor
  · rintro rfl
    -- by induction on the lines, with the loop as a `filterMap`
    induction ls with
    | nil => exact .nil
    | cons line rest ih =>
        rw [List.filterMap_cons]
        cases hrow : row line with
        | none =>
            have hskip : ∀ r, ¬ Line r line := by
              intro r hr
              rw [(h r line).mpr hr] at hrow
              cases hrow
            exact .skip hskip ih
        | some r => exact .row ((h r line).mp hrow) ih
  · intro hrows
    -- each constructor says what the loop does at its line
    induction hrows with
    | nil => rfl
    | row hrow _ ih => rw [List.filterMap_cons, (h _ _).mpr hrow, ih]
    | skip hskip _ ih =>
        rw [List.filterMap_cons,
          Option.eq_none_iff_forall_not_mem.mpr fun r hr => hskip r ((h _ _).mp hr), ih]

/-! ## The columns of an interface

The parser reads its columns one by one and stops at the first that is no numeral. Read as a list of
sixteen columns, the loop body becomes an induction on their number. -/

/-- A column is read when there is a token for it and the token is a numeral. -/
theorem nextU64_eq_some (hrd : rd.ReadsIntegers) {tokens rest : List Bytes} {value : UInt64} :
    nextU64 rd tokens = some (value, rest) ↔
      ∃ token, tokens = token :: rest ∧ rd.u64 token = some value := by
  rw [nextU64, hrd.parseU64_toOption]
  cases tokens with
  | nil => simp
  | cons token rest' =>
      simp only [List.head?_cons, Option.bind_some, List.tail_cons, Option.map_eq_some_iff,
        Prod.mk.injEq, List.cons.injEq]
      constructor
      · rintro ⟨value, hvalue, rfl, rfl⟩
        exact ⟨token, ⟨rfl, rfl⟩, hvalue⟩
      · rintro ⟨_, ⟨rfl, rfl⟩, hvalue⟩
        exact ⟨value, hvalue, rfl, rfl⟩

/-- The next `n` columns. -/
def nextColumns (rd : Readers) : Nat → List Bytes → Option (List UInt64)
  | 0, _ => some []
  | n + 1, tokens => do
      let (value, tokens) ← nextU64 rd tokens
      let values ← nextColumns rd n tokens
      return value :: values

/-- So are `n` of them, and what follows may be anything. -/
theorem nextColumns_eq_some (hrd : rd.ReadsIntegers) {n : Nat} {tokens : List Bytes}
    {values : List UInt64} :
    nextColumns rd n tokens = some values ↔
      values.length = n ∧ ∃ numerals extra, tokens = numerals ++ extra ∧
        Numerals rd numerals values := by
  induction n generalizing tokens values with
  | zero =>
      constructor
      · intro h
        obtain rfl := Option.some.inj h
        exact ⟨rfl, [], tokens, rfl, .nil⟩
      · rintro ⟨hlength, -⟩
        obtain rfl := List.length_eq_zero_iff.mp hlength
        rfl
  | succ n ih =>
      rw [nextColumns]
      constructor
      · intro h
        obtain ⟨⟨value, rest⟩, hnext, h⟩ := Option.bind_eq_some_iff.mp h
        obtain ⟨values', hvalues, h⟩ := Option.bind_eq_some_iff.mp h
        obtain rfl := Option.some.inj h
        obtain ⟨token, rfl, htoken⟩ := (nextU64_eq_some hrd).mp hnext
        obtain ⟨rfl, numerals, extra, rfl, hnumerals⟩ := ih.mp hvalues
        exact ⟨rfl, token :: numerals, extra, rfl, .cons htoken hnumerals⟩
      · rintro ⟨hlength, numerals, extra, rfl, hnumerals⟩
        cases hnumerals with
        | nil => cases hlength
        | @cons token value numerals values htoken hnumerals =>
            have hrest := ih.mpr ⟨Nat.succ.inj hlength, numerals, extra, rfl, hnumerals⟩
            exact Option.bind_eq_some_iff.mpr ⟨(value, numerals ++ extra),
              (nextU64_eq_some hrd).mpr ⟨token, rfl, htoken⟩,
              Option.bind_eq_some_iff.mpr ⟨values, hrest, rfl⟩⟩

/-- What is made of sixteen columns. -/
def IfaceStats.ofColumns (name : String) : List UInt64 → Option IfaceStats
  | [rxBytes, rxPackets, rxErrs, rxDrop, rxFifo, rxFrame, rxCompressed, rxMulticast, txBytes,
      txPackets, txErrs, txDrop, txFifo, txColls, txCarrier, txCompressed] =>
      some {
        name
        rxBytes, rxPackets, rxErrs, rxDrop, rxFifo, rxFrame, rxCompressed, rxMulticast
        txBytes, txPackets, txErrs, txDrop, txFifo, txColls, txCarrier, txCompressed }
  | _ => none

/-- One more column in front: what is done with the columns behind it is done with all of them. -/
theorem bind_nextColumns_succ {α : Type} (n : Nat) (tokens : List Bytes)
    {next : UInt64 × List Bytes → Option α} {f : List UInt64 → Option α}
    (h : ∀ value tokens, next (value, tokens) =
      (nextColumns rd n tokens).bind fun values => f (value :: values)) :
    (nextU64 rd tokens >>= next) = (nextColumns rd (n + 1) tokens).bind f := by
  rw [nextColumns]
  cases nextU64 rd tokens with
  | none => rfl
  | some pair =>
      obtain ⟨value, rest⟩ := pair
      refine (h value rest).trans ?_
      simp only [Option.bind_eq_bind, Option.bind_some, Option.bind_assoc]
      rfl

/-- The sixteen reads of the source are sixteen columns and what is made of them. -/
theorem parseColumns_eq (name : String) (tokens : List Bytes) :
    parseColumns rd name tokens = (nextColumns rd 16 tokens).bind (IfaceStats.ofColumns name) := by
  unfold parseColumns
  iterate 16 refine bind_nextColumns_succ _ _ fun _ _ => ?_
  rfl

/-- The columns of an interface are accepted when the first sixteen tokens are numerals. -/
theorem parseColumns_eq_some (hrd : rd.ReadsIntegers) {name : String} {tokens : List Bytes}
    {stats : IfaceStats} :
    parseColumns rd name tokens = some stats ↔
      stats.name = name ∧
        ∃ numerals extra, tokens = numerals ++ extra ∧ Numerals rd numerals stats.columns := by
  rw [parseColumns_eq]
  constructor
  · intro h
    obtain ⟨values, hvalues, hstats⟩ := Option.bind_eq_some_iff.mp h
    obtain ⟨hlength, hnumerals⟩ := (nextColumns_eq_some hrd).mp hvalues
    match values, hlength with
    | [_, _, _, _, _, _, _, _, _, _, _, _, _, _, _, _], _ =>
      obtain rfl := Option.some.inj hstats
      exact ⟨rfl, hnumerals⟩
  · rintro ⟨rfl, hnumerals⟩
    exact Option.bind_eq_some_iff.mpr
      ⟨stats.columns, (nextColumns_eq_some hrd).mpr ⟨rfl, hnumerals⟩, rfl⟩

/-! ## The columns of a device and of a core

These two parsers fill an array of zeros from the tokens, as far as either goes. -/

/-- Slots and tokens are walked together: a slot with a token holds its number, a slot without one
stays as it was, and a token without a slot is not looked at. -/
theorem fillFields_eq_some {slots fields : List UInt64} {tokens : List Bytes} :
    fillFields rd slots tokens = some fields ↔
      Numerals rd (tokens.take slots.length) (fields.take tokens.length) ∧
        fields.drop tokens.length = slots.drop tokens.length := by
  induction slots generalizing fields tokens with
  | nil =>
      have hfill : fillFields rd [] tokens = some [] := by cases tokens <;> rfl
      rw [hfill, Option.some.injEq, List.length_nil, List.take_zero, List.drop_nil]
      constructor
      · rintro rfl
        simp [Numerals]
      · rintro ⟨hnumerals, hrest⟩
        rw [← List.take_append_drop tokens.length fields, hrest,
          List.forall₂_nil_left_iff.mp hnumerals]
        rfl
  | cons slot slots ih =>
      cases tokens with
      | nil => simp [fillFields, Numerals, eq_comm]
      | cons token tokens =>
          have hfill : fillFields rd (slot :: slots) (token :: tokens) = some fields ↔
              ∃ value values, rd.u64 token = some value ∧
                fillFields rd slots tokens = some values ∧ fields = value :: values := by
            rw [fillFields]
            -- a token that is no numeral refuses the whole row
            cases hvalue : parseU64 rd (some token) with
            | error err =>
                have hnone : ∀ value, rd.u64 token ≠ some value := by
                  intro value h
                  rw [parseU64, parseToken_eq_ok.mpr h] at hvalue
                  cases hvalue
                simp [hnone]
            | ok value =>
                have hread : rd.u64 token = some value := parseToken_eq_ok.mp hvalue
                simp [hread, eq_comm]
          rw [hfill]
          constructor
          · rintro ⟨value, values, hvalue, hvalues, rfl⟩
            obtain ⟨hnumerals, hrest⟩ := ih.mp hvalues
            exact ⟨.cons hvalue hnumerals, hrest⟩
          · rintro ⟨hnumerals, hrest⟩
            cases fields with
            | nil => cases hnumerals
            | cons value values =>
                cases hnumerals with
                | cons hvalue hnumerals =>
                    exact ⟨value, values, hvalue, ih.mpr ⟨hnumerals, hrest⟩, rfl⟩

/-- Empty slots are filled as the grammar says. -/
theorem fillFields_replicate_eq_some {n : Nat} {fields : List UInt64} {tokens : List Bytes} :
    fillFields rd (List.replicate n 0) tokens = some fields ↔
      fields.length = n ∧ Fills rd tokens fields := by
  rw [fillFields_eq_some, List.length_replicate, List.drop_replicate]
  constructor
  · rintro ⟨hnumerals, hrest⟩
    have hlength : fields.length = n := by
      have htake := hnumerals.length_eq
      have hdrop := congrArg List.length hrest
      simp only [List.length_take, List.length_drop, List.length_replicate] at htake hdrop
      omega
    refine ⟨hlength, ⟨by rw [hlength]; exact hnumerals, fun value hvalue => ?_⟩⟩
    rw [hrest] at hvalue
    exact List.eq_of_mem_replicate hvalue
  · rintro ⟨rfl, hnumerals, hrest⟩
    exact ⟨hnumerals, List.eq_replicate_iff.mpr ⟨List.length_drop, hrest⟩⟩

/-! ## The rows -/

/-- A line is cut at its first `:`, and a blank name drops it. -/
theorem parseDevLine_append {name : Bytes} (hname : colonByte ∉ name) (rest : Bytes) :
    parseDevLine rd (name ++ colonByte :: rest) =
      if trimAscii name = [] then none
      else parseColumns rd (Utf8.lossy (trimAscii name)) (asciiTokens rest) := by
  rw [parseDevLine, colonPosition_append hname]
  simp only [Option.bind_eq_bind, Option.bind_some, List.take_left, drop_colon]
  cases trimAscii name <;> rfl

/-- The rows of `/proc/net/dev` are those of the grammar. -/
theorem parseDevLine_eq_some (hrd : rd.ReadsIntegers) {line : Bytes} {stats : IfaceStats} :
    parseDevLine rd line = some stats ↔ stats.Line rd line := by
  constructor
  · intro h
    cases hposition : colonPosition line with
    | none =>
        rw [parseDevLine, hposition] at h
        cases h
    | some colon =>
        obtain ⟨name, c, rest, rfl, -, hname, hc⟩ := exists_of_findIdx?_eq_some hposition
        obtain rfl := beq_iff_eq.mp hc
        have hno_colon : colonByte ∉ name := fun hmem => absurd (hname _ hmem) (by decide)
        rw [parseDevLine_append hno_colon] at h
        obtain ⟨htrim, h⟩ := Option.ite_none_left_eq_some.mp h
        obtain ⟨hstats, numerals, extra, htokens, hnumerals⟩ := (parseColumns_eq_some hrd).mp h
        exact ⟨name, rest, numerals, extra, rfl, hno_colon, htrim, hstats, htokens, hnumerals⟩
  · rintro ⟨name, rest, numerals, extra, rfl, hno_colon, htrim, hstats, htokens, hnumerals⟩
    rw [parseDevLine_append hno_colon, if_neg htrim]
    exact (parseColumns_eq_some hrd).mpr ⟨hstats, numerals, extra, htokens, hnumerals⟩

/-- On a token that is there, the parser is the number reader. -/
theorem toOption_parseU64_token (token : Bytes) :
    (parseU64 rd (some token)).toOption = rd.u64 token := by
  rw [parseU64, parseToken, Option.getD_some]
  cases rd.u64 token <;> rfl

/-- The rows of `/proc/diskstats` are those of the grammar: two numerals that are dropped, a name,
and the slots. -/
theorem parseDiskstatsLine_eq_some {line : Bytes} {stat : DiskStat} :
    parseDiskstatsLine rd line = some stat ↔ stat.Line rd line := by
  unfold parseDiskstatsLine
  constructor
  · intro h
    match htokens : asciiTokens line with
    | [] | [_] | [_, _] =>
        simp only [htokens] at h
        cases h
    | major :: minor :: name :: counters =>
        simp only [htokens, toOption_parseU64_token] at h
        obtain ⟨m, hmajor, h⟩ := Option.bind_eq_some_iff.mp h
        obtain ⟨n, hminor, h⟩ := Option.bind_eq_some_iff.mp h
        obtain ⟨fields, hfields, h⟩ := Option.bind_eq_some_iff.mp h
        obtain ⟨hlength, hfills⟩ := fillFields_replicate_eq_some.mp hfields
        match fields, hlength with
        | [_, _, _, _, _, _, _, _, _, _, _, _, _, _, _, _, _], _ =>
          obtain rfl := Option.some.inj h
          have hmajor' : (rd.u64 major).isSome = true := by rw [hmajor]; rfl
          have hminor' : (rd.u64 minor).isSome = true := by rw [hminor]; rfl
          exact ⟨major, minor, name, counters, htokens, hmajor', hminor', rfl, hfills⟩
  · rintro ⟨major, minor, name, counters, htokens, hmajor, hminor, hname, hfills⟩
    obtain ⟨m, hmajor⟩ := Option.isSome_iff_exists.mp hmajor
    obtain ⟨n, hminor⟩ := Option.isSome_iff_exists.mp hminor
    have hfields : fillFields rd (List.replicate 17 0) counters = some stat.columns :=
      fillFields_replicate_eq_some.mpr ⟨rfl, hfills⟩
    simp only [htokens, toOption_parseU64_token, hmajor, hminor, hfields, Option.bind_eq_bind,
      Option.bind_some, ← hname]
    rfl

/-- The rows of `/proc/stat` are those of the grammar. -/
theorem parseCpuLine_eq_some {line : Bytes} {entry : CpuTimes} :
    parseCpuLine rd line = some entry ↔ entry.Line rd line := by
  unfold parseCpuLine
  constructor
  · intro h
    match htokens : asciiTokens line with
    | [] =>
        simp only [htokens] at h
        cases h
    | name :: ticks =>
        simp only [htokens] at h
        obtain ⟨_, hcpu, h⟩ := Option.bind_eq_some_iff.mp h
        obtain ⟨fields, hfields, h⟩ := Option.bind_eq_some_iff.mp h
        obtain ⟨hlength, hfills⟩ := fillFields_replicate_eq_some.mp hfields
        have hpre : bytes "cpu" <+: name := by
          rw [← List.isPrefixOf_iff_prefix]
          simpa using hcpu
        match fields, hlength with
        | [_, _, _, _, _, _, _, _, _, _], _ =>
          obtain rfl := Option.some.inj h
          exact ⟨name, ticks, htokens, hpre, rfl, hfills⟩
  · rintro ⟨name, ticks, htokens, hpre, hname, hfills⟩
    have hcpu : (bytes "cpu").isPrefixOf name = true := List.isPrefixOf_iff_prefix.mpr hpre
    have hfields : fillFields rd (List.replicate 10 0) ticks = some entry.columns :=
      fillFields_replicate_eq_some.mpr ⟨rfl, hfills⟩
    simp only [htokens, hcpu, guard_true, hfields, Option.bind_eq_bind, Option.bind_some, ← hname]
    rfl

end

/-- **What the tolerant parsers accept.** Of every content, the rows read are those of its
well-formed lines: `/proc/net/dev` needs a name, a `:` and all sixteen columns, `/proc/diskstats`
and `/proc/stat` take as many columns as there are and fill up with zeros; a token that is no
numeral of a `u64` in one of these columns costs the whole line, and one behind them nothing. -/
theorem tables_accept (rd : Readers) (hrd : rd.ReadsIntegers) (content : Bytes) :
    (∀ rows, (DevStats.parseDev rd content).interfaces = rows ↔
      RowsOf (IfaceStats.Line rd) (lines content) rows) ∧
    (∀ rows, (DiskStats.parseDiskstats rd content).disks = rows ↔
      RowsOf (DiskStat.Line rd) (lines content) rows) ∧
    ∀ rows, (CpuStat.parseStat rd content).cpus = rows ↔
      RowsOf (CpuTimes.Line rd) (lines content) rows :=
  ⟨fun _ => parseLines_eq_iff fun _ _ => parseDevLine_eq_some hrd,
    fun _ => parseLines_eq_iff fun _ _ => parseDiskstatsLine_eq_some,
    fun _ => parseLines_eq_iff fun _ _ => parseCpuLine_eq_some⟩

/-- A line with a malformed counter is passed over, and a short row has 0 for the columns it lacks.
-/
theorem tables_accept_shortDisk :
    RowsOf (DiskStat.Line Readers.documented) (lines (bytes "8 0 sda 5 7 x\n8 1 sda1 5 7\n"))
      [⟨"sda1", 5, 7, 0, 0, 0, 0, 0, 0, 0, 0, 0, 0, 0, 0, 0, 0, 0⟩] :=
  ((tables_accept Readers.documented ⟨rfl, rfl, rfl⟩ _).2.1 _).mp (by decide +kernel)

end MetricsExporter.Procfs
