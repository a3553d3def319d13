/-
# MetricsExporter.Procfs.KeyedFile -- what the two files of `Key: value` lines share

`/proc/meminfo` and `/proc/<pid>/status` are read by a loop over their lines that assigns the value
of a line to the field its key selects. `keyReadings` is what the lines of a key hold, and is said
of the octets alone; `readings_keyedEntry` says that the loops go through exactly that.

The two loops differ in what they do with a value that is no number (an error, or a line passed
over) and in which keys they ask for at the end. Neither is said here: the entries carry the refusal
along as `none`, and the two modules that use this one say what becomes of it. What is assumed is a
table of keys in which each key is found at its own entry.
-/
import MetricsExporter.Lib.Assignments
import MetricsExporter.Lib.Loops
import MetricsExporter.Procfs.Fs

namespace MetricsExporter.Procfs

open MetricsExporter.Lib

/-! ## What the lines of a key hold -/

/-- The value of a line with a key: the first token behind the `:`, if there is one and `read`
accepts it. -/
def keyReading {α : Type} (read : Bytes → Option α) (key : String) (line : Bytes) :
    Option (Option α) := do
  let (k, token) ← keyValue line
  guard (k = bytes key)
  return token.bind read

/-- The values of the lines with a key, in order. -/
def keyReadings {α : Type} (read : Bytes → Option α) (key : String) (content : Bytes) :
    List (Option α) :=
  (lines content).filterMap (keyReading read key)

/-- A key has a line, and every line of it an accepted value. -/
structure Complete {α : Type} (rs : List (Option α)) : Prop where
  present : rs ≠ []
  accepted : none ∉ rs

/-- Of a complete key the last line counts. -/
theorem Complete.exists_last {α : Type} {rs : List (Option α)} (h : Complete rs) :
    ∃ v, lastAccepted rs = some v ∧ rs.getLast? = some (some v) := by
  have hsome := lastAccepted_isSome h.accepted h.present
  obtain ⟨v, hv⟩ := Option.isSome_iff_exists.mp hsome
  refine ⟨v, hv, ?_⟩
  rw [getLast?_eq_lastAccepted h.accepted h.present, hv]

/-- A line whose key is none of the known ones, or that has no key. -/
def UnknownLine (known : Bytes → Prop) (line : Bytes) : Prop :=
  ∀ key text, line = key ++ colonByte :: text → colonByte ∉ key → ¬ known (trimAscii key)

/-- What is read as the key of an unknown line is no known key. -/
theorem UnknownLine.of_keyValue {known : Bytes → Prop} {line key : Bytes} {token : Option Bytes}
    (h : UnknownLine known line) (hkey : keyValue line = some (key, token)) : ¬ known key := by
  obtain ⟨raw, text, rfl, hno_colon, rfl, -⟩ := exists_of_keyValue hkey
  exact h raw text rfl hno_colon

/-- A `key: text` line of a key that is none of the known ones, whatever the text. -/
theorem unknownLine_of_key {known : Bytes → Prop} {key : Bytes} (hcolon : colonByte ∉ key)
    (hkey : ¬ known (trimAscii key)) (text : Bytes) :
    UnknownLine known (key ++ colonByte :: text) := by
  intro key' text' heq hcolon'
  -- both keys end at the first `:` of the line, so they have one length
  have hposition := colonPosition_append hcolon text
  rw [heq, colonPosition_append hcolon'] at hposition
  obtain ⟨rfl, -⟩ := List.append_inj heq (Option.some.inj hposition).symm
  exact hkey

/-- A line with a key, any blanks behind the `:`, and a value that stands on its own. -/
def KeyLine (key : String) (value line : Bytes) : Prop :=
  ∃ gap rest, (∀ b ∈ gap, isAsciiWhitespace b = true) ∧ Breaks isAsciiWhitespace rest ∧
    line = bytes key ++ colonByte :: (gap ++ (value ++ rest))

/-- A line of a key is read as its key and the value, whatever blanks stand behind the `:` and
whatever follows the value. -/
theorem keyValue_keyLine {key : String} {value line : Bytes} (hno_colon : colonByte ∉ bytes key)
    (htrim : trimAscii (bytes key) = bytes key) (hvalue : IsToken isAsciiWhitespace value)
    (h : KeyLine key value line) : keyValue line = some (bytes key, some value) := by
  obtain ⟨gap, rest, hgap, hrest, rfl⟩ := h
  rw [keyValue_append hno_colon, htrim, asciiTokens, tokens_seps_append hgap,
    tokens_token_append hvalue hrest]
  rfl

/-! ## The entries a loop goes through -/

/-- In a table of texts a key is found at the entry it is the text of. -/
theorem find?_text_eq_some {κ : Type} {text : κ → String} {all : List κ} {key : Bytes} {k : κ}
    (hself : (all.find? fun j => bytes (text j) == bytes (text k)) = some k) :
    (all.find? fun j => bytes (text j) == key) = some k ↔ key = bytes (text k) := by
  constructor
  · intro h
    have hbeq := List.find?_some h
    exact (beq_iff_eq.mp hbeq).symm
  · rintro rfl
    exact hself

section

variable {κ : Type} {ω : κ → Type} {ofBytes : Bytes → Option κ}
  {read : (k : κ) → Option Bytes → Option (ω k)}

/-- The field a line is about, with what is read for it. -/
def keyedEntry (ofBytes : Bytes → Option κ) (read : (k : κ) → Option Bytes → Option (ω k))
    (line : Bytes) : Option (Entry ω) := do
  let (key, token) ← keyValue line
  let k ← ofBytes key
  return ⟨k, read k token⟩

/-- A line of a known key is an entry for it. -/
theorem keyedEntry_of_keyValue {line key : Bytes} {token : Option Bytes} {k : κ}
    (hline : keyValue line = some (key, token)) (hkey : ofBytes key = some k) :
    keyedEntry ofBytes read line = some ⟨k, read k token⟩ := by
  rw [keyedEntry, hline]
  simp [hkey]

/-- An unknown line is no entry. -/
theorem keyedEntry_unknown {known : Bytes → Prop} {line : Bytes} (h : UnknownLine known line)
    (hknown : ∀ key k, ofBytes key = some k → known key) :
    keyedEntry ofBytes read line = none := by
  rw [keyedEntry]
  cases hline : keyValue line with
  | none => rfl
  | some entry =>
      obtain ⟨key, token⟩ := entry
      cases hkey : ofBytes key with
      | none => simp [hkey]
      | some k => exact absurd (hknown key k hkey) (h.of_keyValue hline)

/-- **What a loop reads for a key** is what the lines of the key hold. -/
theorem readings_keyedEntry [DecidableEq κ] {k : κ} {text : String}
    (hof : ∀ key, ofBytes key = some k ↔ key = bytes text) {accept : Bytes → Option (ω k)}
    (hread : ∀ token, read k token = token.bind accept) (content : Bytes) :
    readings k ((lines content).filterMap (keyedEntry ofBytes read)) =
      keyReadings accept text content := by
  unfold keyReadings
  induction lines content with
  | nil => rfl
  | cons line ls ih =>
      -- a line without a `:` counts on neither side
      cases hline : keyValue line with
      | none =>
          have hentry : keyedEntry ofBytes read line = none := by simp [keyedEntry, hline]
          have hreading : keyReading accept text line = none := by simp [keyReading, hline]
          rw [List.filterMap_cons_none hentry, List.filterMap_cons_none hreading, ih]
      | some entry =>
          obtain ⟨key, token⟩ := entry
          by_cases hkey : key = bytes text
          · have hentry : keyedEntry ofBytes read line = some ⟨k, read k token⟩ :=
              keyedEntry_of_keyValue hline ((hof key).mpr hkey)
            have hreading : keyReading accept text line = some (token.bind accept) := by
              simp [keyReading, hline, hkey]
            rw [List.filterMap_cons_some hentry, List.filterMap_cons_some hreading,
              readings_cons_self, hread, ih]
          · have hreading : keyReading accept text line = none := by
              simp [keyReading, hline, hkey]
            rw [List.filterMap_cons_none hreading, ← ih]
            -- the line is about another field, or about none
            cases hof_key : ofBytes key with
            | none =>
                have hentry : keyedEntry ofBytes read line = none := by
                  simp [keyedEntry, hline, hof_key]
                rw [List.filterMap_cons_none hentry]
            | some j =>
                have hne : j ≠ k := fun hjk => hkey ((hof key).mp (hjk ▸ hof_key))
                rw [List.filterMap_cons_some (keyedEntry_of_keyValue hline hof_key),
                  readings_cons_of_ne hne]

end

end MetricsExporter.Procfs
