/-
# MetricsExporter.Procfs.Process.Io -- `/proc/<pid>/io`

This file is read as text, unlike the others: its content has to be UTF-8, lines end as `str::lines`
has it, and blanks are those of Unicode. A line that is no known `key: number` is passed over, and a
counter without a line is 0, so no text is an error; a file that is no text is one.

`Io.parseIo_eq` does away with the loop and with carriage returns, and `Io.parseIo_printed` reads
back what the kernel prints, in any order and among any other lines. A number is read by
`Readers.u64` on the octets of the trimmed value, as `lexical::parse` takes octets too.
-/
import MetricsExporter.Lib.Keys
import MetricsExporter.Lib.Loops
import MetricsExporter.Procfs.Fs

namespace MetricsExporter.Procfs

open MetricsExporter.Lib

/-- The I/O counters of a task. -/
structure Io where
  rchar : UInt64 := 0
  wchar : UInt64 := 0
  syscr : UInt64 := 0
  syscw : UInt64 := 0
  readBytes : UInt64 := 0
  writeBytes : UInt64 := 0
  cancelledWriteBytes : UInt64 := 0
  deriving DecidableEq, Repr

/-- The keys `parse_io` matches on. -/
inductive IoKey where
  | rchar
  | wchar
  | syscr
  | syscw
  | readBytes
  | writeBytes
  | cancelledWriteBytes
  deriving DecidableEq, Repr

namespace IoKey

/-- The pattern of each arm. -/
def text : IoKey → String
  | rchar => "rchar"
  | wchar => "wchar"
  | syscr => "syscr"
  | syscw => "syscw"
  | readBytes => "read_bytes"
  | writeBytes => "write_bytes"
  | cancelledWriteBytes => "cancelled_write_bytes"

def all : List IoKey :=
  [rchar, wchar, syscr, syscw, readBytes, writeBytes, cancelledWriteBytes]

/-- The arm a key selects, if it is not the last one `_ => {}`. -/
def ofText (key : List Char) : Option IoKey := all.find? fun k => k.text.toList == key

end IoKey

/-- The assignment of each arm of `parse_io`. -/
def Io.set (io : Io) (value : UInt64) : IoKey → Io
  | .rchar => { io with rchar := value }
  | .wchar => { io with wchar := value }
  | .syscr => { io with syscr := value }
  | .syscw => { io with syscw := value }
  | .readBytes => { io with readBytes := value }
  | .writeBytes => { io with writeBytes := value }
  | .cancelledWriteBytes => { io with cancelledWriteBytes := value }

section

variable (rd : Readers)

/-- The arm and the value that a line of `parse_io` selects; `none` is its `continue`, or the arm
`_ => {}`. -/
def ioLineValue (line : List Char) : Option (IoKey × UInt64) := do
  let colon ← line.findIdx? (· == ':')
  let key := trimText (line.take colon)
  let value := trimText (line.drop (colon + 1))
  guard (!(key.isEmpty || value.isEmpty))
  let value ← rd.u64 (Utf8.encode (String.ofList value))
  let k ← IoKey.ofText key
  return (k, value)

/-- `Io::parse_io`. -/
def Io.parseIo (content : String) : Io := Id.run do
  let mut io : Io := {}
  for line in textLines content.toList do
    let some (k, value) := ioLineValue rd line | continue
    io := io.set value k
  return io

/-- `Io::from_file`: the file must be text. -/
def Io.fromFile (path : Path) : ProcM (ProcResult Io) := do
  match ← readToString path with
  | .ok content => return .ok (Io.parseIo rd content)
  | .error err => return .error err

end

@[simp]
theorem Io.eval_fromFile (rd : Readers) (path : Path) (fs : ProcFs) :
    (Io.fromFile rd path).eval fs =
      ((fs.file path).bind Utf8.strict).elim (.error .ioError)
        (fun content => .ok (Io.parseIo rd content)) := by
  unfold Io.fromFile
  rw [ProcM.eval_bind, eval_readToString]
  cases (fs.file path).bind Utf8.strict <;> rfl

@[simp]
theorem Io.accesses_fromFile (rd : Readers) (path : Path) (fs : ProcFs) :
    (Io.fromFile rd path).accesses fs = [.read path] := by
  unfold Io.fromFile
  rw [ProcM.accesses_bind, accesses_readToString, eval_readToString]
  cases (fs.file path).bind Utf8.strict <;> rfl

/-! ## The loop -/

/-- The counter of each arm. -/
def Io.counter (io : Io) : IoKey → UInt64
  | .rchar => io.rchar
  | .wchar => io.wchar
  | .syscr => io.syscr
  | .syscw => io.syscw
  | .readBytes => io.readBytes
  | .writeBytes => io.writeBytes
  | .cancelledWriteBytes => io.cancelledWriteBytes

/-- Seven counters are all there is of it. -/
@[ext]
theorem Io.ext_counter {io io' : Io} (h : ∀ k, io.counter k = io'.counter k) : io = io' := by
  cases io
  cases io'
  rw [Io.mk.injEq]
  exact ⟨h .rchar, h .wchar, h .syscr, h .syscw, h .readBytes, h .writeBytes,
    h .cancelledWriteBytes⟩

/-- An arm assigns its own counter and no other. -/
theorem Io.counter_set (io : Io) (value : UInt64) (k j : IoKey) :
    (io.set value k).counter j = if j = k then value else io.counter j := by
  cases k <;> cases j <;> rfl

section

variable (rd : Readers)

/-- The carriage return that `str::lines` strips does not matter: the value is trimmed. -/
theorem ioLineValue_stripCarriageReturn (line : List Char) :
    ioLineValue rd (stripCarriageReturn line) = ioLineValue rd line := by
  unfold stripCarriageReturn
  split
  · rename_i hlast
    obtain ⟨init, rfl⟩ := List.getLast?_eq_some_iff.mp hlast
    have hcolon : (init ++ ['\r']).findIdx? (· == ':') = init.findIdx? (· == ':') := by
      rw [List.findIdx?_append]
      exact Option.or_none
    rw [List.dropLast_concat, ioLineValue, ioLineValue, hcolon]
    cases hposition : init.findIdx? (· == ':') with
    | none => rfl
    | some colon =>
        -- the carriage return is part of the value, which is trimmed
        have hlt : colon < init.length := by
          obtain ⟨hlt, -⟩ := List.findIdx?_eq_some_iff_getElem.mp hposition
          exact hlt
        have htrim : trimText ((init ++ ['\r']).drop (colon + 1)) =
            trimText (init.drop (colon + 1)) := by
          rw [List.drop_append_of_le_length hlt]
          exact trim_append_gap _ (by decide)
        simp only [Option.bind_eq_bind, Option.bind_some, htrim,
          List.take_append_of_le_length hlt.le]
  · rfl

/-- The loop goes through the pieces between line feeds. -/
theorem Io.parseIo_eq (content : String) :
    Io.parseIo rd content =
      ((content.toList.splitOn '\n').filterMap (ioLineValue rd)).foldl
        (fun io kv => io.set kv.2 kv.1) {} := by
  rw [← filterMap_textLines (ioLineValue_stripCarriageReturn rd) rfl]
  unfold Io.parseIo
  dsimp only
  -- a round assigns the value of its line, or leaves the counters as they are
  rw [id_forIn (fun io line => ((ioLineValue rd line).map fun kv => io.set kv.2 kv.1).getD io)]
  · generalize ({} : Io) = io
    induction textLines content.toList generalizing io with
    | nil => rfl
    | cons line ls ih =>
        rw [List.foldl_cons, List.filterMap_cons]
        cases hline : ioLineValue rd line with
        | none => exact ih io
        | some kv => exact ih (io.set kv.2 kv.1)
  · intro line io
    cases ioLineValue rd line <;> rfl

end

/-! ## The file as the kernel prints it -/

/-- What the kernel prints in front of the `:`. -/
def IoKey.label : IoKey → String
  | rchar => "rchar"
  | wchar => "wchar"
  | syscr => "syscr"
  | syscw => "syscw"
  | readBytes => "read_bytes"
  | writeBytes => "write_bytes"
  | cancelledWriteBytes => "cancelled_write_bytes"

/-- A `key: value` line of a counter: its key, `:`, and the numeral between any blanks. -/
def Io.Renders (io : Io) (k : IoKey) (line : List Char) : Prop :=
  ∃ pre post, (∀ c ∈ pre, isWhitespace c = true) ∧ (∀ c ∈ post, isWhitespace c = true) ∧
    line = k.label.toList ++ ':' :: (pre ++ (Decimal.numeral (io.counter k).toNat ++ post))

/-- A line whose key is none of the seven, or that has no key. -/
def UnknownIoLine (line : List Char) : Prop :=
  ∀ key text, line = key ++ ':' :: text → ':' ∉ key → ∀ k : IoKey, trimText key ≠ k.label.toList

/-- The text of the lines `ls`. -/
def unlinesText (ls : List (List Char)) : String := String.ofList (['\n'].intercalate ls)

/-- The parser matches on what the kernel prints. -/
theorem IoKey.label_eq_text (k : IoKey) : k.label = k.text := by
  cases k <;> rfl

/-- What the loop needs of the seven patterns: no `:`, no blanks around them, not empty, each found
at its own arm. -/
theorem IoKey.text_spec (k : IoKey) : (∀ c ∈ k.text.toList, (c == ':') = false) ∧
    trimText k.text.toList = k.text.toList ∧ k.text.toList.isEmpty = false ∧
    IoKey.ofText k.text.toList = some k := by
  cases k <;> decide

section

variable {rd : Readers}

/-- A printed line selects its own arm, with the number printed. -/
theorem ioLineValue_rendered (hrd : rd.ReadsDecimals) (io : Io) (k : IoKey) (line : List Char)
    (h : io.Renders k line) : ioLineValue rd line = some (k, io.counter k) := by
  obtain ⟨pre, post, hpre, hpost, rfl⟩ := h
  rw [k.label_eq_text]
  obtain ⟨hno_colon, htrim_key, hkey, hof⟩ := k.text_spec
  have hcolon := findIdx?_append_cons hno_colon (beq_self_eq_true ':')
    (pre ++ (Decimal.numeral (io.counter k).toNat ++ post))
  have htrim : trimText (pre ++ (Decimal.numeral (io.counter k).toNat ++ post)) =
      Decimal.numeral (io.counter k).toNat :=
    trim_gaps hpre (fun c hc => isWhitespace_digit (Decimal.isDigit_of_mem_numeral hc)) hpost
  have hvalue : (Decimal.numeral (io.counter k).toNat).isEmpty = false :=
    List.isEmpty_eq_false_iff.mpr (Decimal.numeral_ne_nil _)
  have hread : rd.u64 (Utf8.encode (String.ofList (Decimal.numeral (io.counter k).toNat))) =
      some (io.counter k) := by
    rw [encode_numeral]
    exact hrd.u64_decimal (io.counter k)
  have hdrop : (k.text.toList ++ ':' :: (pre ++ (Decimal.numeral (io.counter k).toNat ++
      post))).drop (k.text.toList.length + 1) =
        pre ++ (Decimal.numeral (io.counter k).toNat ++ post) := by
    rw [← List.drop_drop, List.drop_left]
    rfl
  rw [ioLineValue, hcolon]
  simp only [Option.bind_eq_bind, Option.bind_some, List.take_left, hdrop, htrim_key, htrim, hkey,
    hvalue, hread, hof, Bool.or_self, Bool.not_false, guard_true]
  rfl

/-- A line of no known key selects none. -/
theorem ioLineValue_unknown (line : List Char) (h : UnknownIoLine line) :
    ioLineValue rd line = none := by
  unfold ioLineValue
  cases hposition : line.findIdx? (· == ':') with
  | none => rfl
  | some colon =>
      obtain ⟨key, c, text, rfl, rfl, hkey, hc⟩ := exists_of_findIdx?_eq_some hposition
      obtain rfl := beq_iff_eq.mp hc
      have hno_colon : ':' ∉ key := fun hmem => absurd (hkey _ hmem) (by simp)
      -- the parser cuts at the first `:`, where the line is assumed to have an unknown key
      have hof : IoKey.ofText (trimText key) = none := by
        rw [IoKey.ofText, List.find?_eq_none]
        intro k _ heq
        rw [← k.label_eq_text] at heq
        exact h key text rfl hno_colon k (beq_iff_eq.mp heq).symm
      simp [hof]

/-- **`/proc/<pid>/io` reads back.** Whatever the order of its lines and whatever other lines stand
among them, the counters printed are the counters read. -/
theorem Io.parseIo_printed (hrd : rd.ReadsDecimals) (io : Io) {keys : List IoKey}
    (hkeys : ∀ k, k ∈ keys) {ls : List (List Char)}
    (hfile : Interleaved io.Renders UnknownIoLine keys ls) (hlines : ∀ l ∈ ls, '\n' ∉ l) :
    Io.parseIo rd (unlinesText ls) = io := by
  have hne : ls ≠ [] := by
    rintro rfl
    cases hfile
    exact absurd (hkeys .rchar) List.not_mem_nil
  rw [Io.parseIo_eq, unlinesText, String.toList_ofList, List.splitOn_intercalate '\n' hlines hne,
    hfile.filterMap_eq (ioLineValue_rendered hrd io) ioLineValue_unknown, List.foldl_map]
  -- each counter is assigned by the lines of its own key only, and these all print one value
  apply Io.ext_counter
  intro k
  have hassign := foldl_assign Io.counter (fun s k => s.set (io.counter k) k) io.counter
    (fun s j k => Io.counter_set s (io.counter j) j k) keys {} k
  rw [if_pos (hkeys k)] at hassign
  exact hassign

end

end MetricsExporter.Procfs
