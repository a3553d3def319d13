/-
# MetricsExporter.Procfs.Process.Stat -- `/proc/<pid>/stat`

The line is `pid (comm) state ...`, and `comm` is whatever the process calls itself, with blanks and
parentheses if it likes. The parser looks for the last `)`, which is the one of the kernel as long
as no token behind it has one; `parseStat_comm` says that the name then decides nothing.

Only the two times are read of the tokens behind the name, by their position. The other tokens may
be anything, and there may be any number of them.
-/
import MetricsExporter.Procfs.Fs

namespace MetricsExporter.Procfs

open MetricsExporter.Lib

/-- CPU time of one task, in kernel ticks. -/
structure Stat where
  utimeTicks : UInt64
  stimeTicks : UInt64
  deriving DecidableEq, Repr

/-- The octet `b')'`. -/
def closeParen : UInt8 := 41

/-- What stands behind the last `)`: the slice from `rposition(|&byte| byte == b')') + 1` on. -/
def afterComm (content : Bytes) : Option Bytes :=
  (content.reverse.findIdx? (· == closeParen)).map fun i => content.drop (content.length - i)

/-- `Stat::parse_stat`. -/
def Stat.parseStat (rd : Readers) (content : Bytes) : ProcResult Stat := do
  let some rest := afterComm content | .error .lexicalError
  -- Token 0 is the state, token 11 is utime (field 14) and token 12 is stime (field 15).
  let tokens := asciiTokens rest
  let some utime := tokens[11]? | .error .lexicalError
  let some stime := tokens[12]? | .error .lexicalError
  let utimeTicks ← parseU64 rd (some utime)
  let stimeTicks ← parseU64 rd (some stime)
  return { utimeTicks, stimeTicks }

/-! ## The name of the process decides nothing -/

/-- The line as the kernel prints it: the name between parentheses, whatever its octets. -/
def statLine (pid comm rest : Bytes) : Bytes :=
  pid ++ bytes " (" ++ comm ++ closeParen :: rest

/-- The last `)` is the one in front of a rest that has none. -/
theorem afterComm_append (pre : Bytes) {rest : Bytes} (hrest : closeParen ∉ rest) :
    afterComm (pre ++ closeParen :: rest) = some rest := by
  have hno_paren : ∀ b ∈ rest.reverse, (b == closeParen) = false := by
    intro b hb
    rw [beq_eq_false_iff_ne]
    rintro rfl
    exact hrest (List.mem_reverse.mp hb)
  -- from the right, the rest has no `)` and the next octet is one
  have hposition : (pre ++ closeParen :: rest).reverse.findIdx? (· == closeParen) =
      some rest.length := by
    rw [List.reverse_append, List.reverse_cons, List.append_assoc, List.singleton_append,
      findIdx?_append_cons hno_paren rfl, List.length_reverse]
  have hlength : (pre ++ closeParen :: rest).length - rest.length = pre.length + 1 := by
    rw [List.length_append, List.length_cons]
    omega
  rw [afterComm, hposition, Option.map_some, hlength, ← List.drop_drop, List.drop_left]
  rfl

/-- A separator is no `)`. -/
theorem closeParen_notMem_of_spacedBy {tokens : List Bytes} {rest : Bytes}
    (hrest : SpacedBy isAsciiWhitespace tokens rest) (htokens : ∀ t ∈ tokens, closeParen ∉ t) :
    closeParen ∉ rest := by
  have hgap : ∀ gap : Bytes, (∀ b ∈ gap, isAsciiWhitespace b = true) → closeParen ∉ gap :=
    fun gap hblank hmem => absurd (hblank _ hmem) (by decide)
  -- on how the rest is cut into gaps and tokens
  induction hrest with
  | done hblank => exact hgap _ hblank
  | token hblank _ _ _ ih =>
      simp only [List.mem_append, not_or]
      refine ⟨hgap _ hblank, htokens _ List.mem_cons_self, ih fun t ht => ?_⟩
      exact htokens t (List.mem_cons_of_mem _ ht)

section

variable {rd : Readers}

/-- What is made of the tokens behind the name. -/
def Stat.ofTokens (read : Bytes → Option UInt64) (tokens : List Bytes) : Option Stat := do
  let utimeTicks ← tokens[11]?.bind read
  let stimeTicks ← tokens[12]?.bind read
  return { utimeTicks, stimeTicks }

/-- **The line reads back.** The name is passed over. -/
theorem Stat.parseStat_statLine (pid comm : Bytes) {tokens : List Bytes} {rest : Bytes}
    (hrest : SpacedBy isAsciiWhitespace tokens rest) (htokens : ∀ t ∈ tokens, closeParen ∉ t) :
    Stat.parseStat rd (statLine pid comm rest) =
      (Stat.ofTokens rd.u64 tokens).elim (.error .lexicalError) .ok := by
  have hafter := afterComm_append (pid ++ bytes " (" ++ comm)
    (closeParen_notMem_of_spacedBy hrest htokens)
  have htokens_eq : asciiTokens rest = tokens := hrest.tokens_eq
  unfold Stat.parseStat Stat.ofTokens statLine
  simp only [hafter, htokens_eq]
  cases tokens[11]? with
  | none => rfl
  | some utime =>
      cases tokens[12]? with
      | none =>
          simp only [Option.bind_some]
          cases rd.u64 utime <;> rfl
      | some stime =>
          simp only [parseU64, parseToken, Option.getD_some, Option.bind_some]
          cases rd.u64 utime with
          | none => rfl
          | some utimeTicks => cases rd.u64 stime <;> rfl

end

/-- **A process name cannot forge or hide CPU time.** Whatever the name, the ticks are tokens 11 and
12 behind it when both are numerals of a `u64`, and there are none otherwise. -/
theorem parseStat_comm (rd : Readers) (hrd : rd.u64 = Readers.documented.u64) (pid comm : Bytes)
    (tokens : List Bytes) (rest : Bytes) (hrest : SpacedBy isAsciiWhitespace tokens rest)
    (htokens : ∀ t ∈ tokens, closeParen ∉ t) :
    (∀ utime stime, tokens[11]? = some utime → tokens[12]? = some stime →
      (∀ utimeTicks stimeTicks, Readers.documented.u64 utime = some utimeTicks →
        Readers.documented.u64 stime = some stimeTicks →
        Stat.parseStat rd (statLine pid comm rest) = .ok { utimeTicks, stimeTicks }) ∧
      (Readers.documented.u64 utime = none ∨ Readers.documented.u64 stime = none →
        ∃ err, Stat.parseStat rd (statLine pid comm rest) = .error err)) ∧
    (tokens.length < 13 → ∃ err, Stat.parseStat rd (statLine pid comm rest) = .error err) ∧
    ∀ comm' : Bytes, Stat.parseStat rd (statLine pid comm' rest) =
      Stat.parseStat rd (statLine pid comm rest) := by
  -- the right side does not mention the name
  have hline : ∀ comm : Bytes, Stat.parseStat rd (statLine pid comm rest) =
      (Stat.ofTokens Readers.documented.u64 tokens).elim (.error .lexicalError) .ok := by
    intro comm
    rw [Stat.parseStat_statLine pid comm hrest htokens, hrd]
  refine ⟨fun utime stime hutime hstime => ⟨?_, ?_⟩, ?_, fun comm' => ?_⟩
  · intro utimeTicks stimeTicks hutimeTicks hstimeTicks
    rw [hline, Stat.ofTokens, hutime, hstime]
    simp [hutimeTicks, hstimeTicks]
  · intro hnone
    refine ⟨.lexicalError, ?_⟩
    rw [hline, Stat.ofTokens, hutime, hstime]
    rcases hnone with hnone | hnone
    · simp [hnone]
    · cases h : Readers.documented.u64 utime <;> simp [hnone, h]
  · intro hlength
    have hstime : tokens[12]? = none := List.getElem?_eq_none (by omega)
    refine ⟨.lexicalError, ?_⟩
    rw [hline, Stat.ofTokens, hstime]
    cases h : tokens[11]?.bind Readers.documented.u64 <;> rfl
  · rw [hline, hline]

/-- The tokens behind a name, up to the two times. -/
def smallStatTokens : List Bytes :=
  [bytes "S", bytes "1", bytes "2", bytes "3", bytes "0", bytes "-1", bytes "4194304", bytes "10",
    bytes "0", bytes "5", bytes "0", bytes "150", bytes "250"]

/-- A name that imitates the rest of the line. -/
def forgedComm : Bytes := bytes "a) S 1 2 3 0 -1 4194304 10 0 5 0 7 8\n("

/-- The two times are those behind the last parenthesis. -/
theorem parseStat_comm_forged :
    let rest := spaced 32 smallStatTokens
    let line := statLine (bytes "42") forgedComm rest
    (∀ utime stime, smallStatTokens[11]? = some utime → smallStatTokens[12]? = some stime →
      (∀ utimeTicks stimeTicks, Readers.documented.u64 utime = some utimeTicks →
        Readers.documented.u64 stime = some stimeTicks →
        Stat.parseStat Readers.documented line = .ok { utimeTicks, stimeTicks }) ∧
      (Readers.documented.u64 utime = none ∨ Readers.documented.u64 stime = none →
        ∃ err, Stat.parseStat Readers.documented line = .error err)) ∧
    (smallStatTokens.length < 13 → ∃ err, Stat.parseStat Readers.documented line = .error err) ∧
    ∀ comm' : Bytes, Stat.parseStat Readers.documented (statLine (bytes "42") comm' rest) =
      Stat.parseStat Readers.documented line := by
  have htokens : ∀ t ∈ smallStatTokens, t ≠ [] ∧ ∀ b ∈ t, isAsciiWhitespace b = false := by decide
  exact parseStat_comm Readers.documented rfl (bytes "42") forgedComm smallStatTokens _
    (spaced_spacedBy rfl fun t ht => ⟨(htokens t ht).1, (htokens t ht).2⟩) (by decide)

end MetricsExporter.Procfs
