/-
# MetricsExporter.Procfs.Table -- what the three line tables share

`/proc/net/dev`, `/proc/diskstats` and `/proc/stat` are read by the same loop: every line gives one
row or is skipped (`parseLines`). Two of them also fill a fixed array of fields from the tokens of a
line (`fillFields`), where a kernel with fewer columns leaves the rest at 0.

A table is tolerant: a line that cannot be read is passed over without an error, be it a header, a
column that is no number or a name that is missing. So nothing that follows says that a row was not
lost; `DistinctNames` and the renderings at the end say of which lines it is not.
-/
import MetricsExporter.Lib.Loops
import MetricsExporter.Procfs.Fs
import Mathlib.Data.List.Nodup

namespace MetricsExporter.Procfs

open MetricsExporter.Lib

/-- `for line in content.split(..)`, pushing the row of every line that has one; a line without a
row is the loop's `continue`. -/
def parseLines {ρ : Type} (row : Bytes → Option ρ) (content : Bytes) : List ρ := Id.run do
  let mut rows := []
  for line in lines content do
    let some r := row line | continue
    rows := rows ++ [r]
  return rows

/-- **The loop.** The table holds the row of every line that has one, in order. -/
theorem parseLines_eq {ρ : Type} (row : Bytes → Option ρ) (content : Bytes) :
    parseLines row content = (lines content).filterMap row := by
  unfold parseLines
  dsimp only
  rw [id_forIn (fun rows line => rows ++ (row line).toList)]
  · rw [List.filterMap_eq_flatMap_toList]
    exact foldl_gather (fun line => (row line).toList) (lines content) []
  · intro line rows
    cases row line <;> simp

/-- Where a row comes from does not matter, only that its line is there. -/
theorem mem_parseLines {ρ : Type} {row : Bytes → Option ρ} {content line : Bytes} {r : ρ}
    (hline : line ∈ lines content) (hrow : row line = some r) : r ∈ parseLines row content := by
  rw [parseLines_eq]
  exact List.mem_filterMap.mpr ⟨line, hline, hrow⟩

/-! ## The names of the rows

What identifies a row is a name, and the exported attributes hold its lossy decoding. Two names may
collide there, but not when they are ASCII. -/

/-- The names the lines of a table carry. -/
def lineNames (lineName : Bytes → Option Bytes) (content : Bytes) : List Bytes :=
  (lines content).filterMap lineName

/-- No two lines of a table carry the same name, and all names are ASCII. -/
structure DistinctNames (lineName : Bytes → Option Bytes) (content : Bytes) : Prop where
  nodup : (lineNames lineName content).Nodup
  ascii : ∀ name ∈ lineNames lineName content, ∀ b ∈ name, b.toNat < 0x80

instance (lineName : Bytes → Option Bytes) (content : Bytes) :
    Decidable (DistinctNames lineName content) :=
  decidable_of_iff ((lineNames lineName content).Nodup ∧
      ∀ name ∈ lineNames lineName content, ∀ b ∈ name, b.toNat < 0x80)
    ⟨fun h => ⟨h.1, h.2⟩, fun h => ⟨h.nodup, h.ascii⟩⟩

/-- The rows take their names from the lines, so they are as distinct as those. -/
theorem DistinctNames.nodup_map {ρ : Type} {row : Bytes → Option ρ} {name : ρ → String}
    {lineName : Bytes → Option Bytes} {content : Bytes} (h : DistinctNames lineName content)
    (hname : ∀ line r, row line = some r →
      ∃ n, lineName line = some n ∧ name r = Utf8.lossy n) :
    ((parseLines row content).map name).Nodup := by
  have hsub : ((parseLines row content).map name).Sublist
      ((lineNames lineName content).map Utf8.lossy) := by
    rw [parseLines_eq, lineNames]
    clear h
    induction lines content with
    | nil => exact List.Sublist.refl _
    | cons line ls ih =>
        cases hrow : row line with
        | none =>
            -- a line without a row may still carry a name
            rw [List.filterMap_cons_none hrow]
            refine ih.trans (List.Sublist.map _ ?_)
            rw [List.filterMap_cons]
            cases lineName line with
            | none => exact List.Sublist.refl _
            | some n => exact List.sublist_cons_self _ _
        | some r =>
            obtain ⟨n, hn, hr⟩ := hname line r hrow
            rw [List.filterMap_cons_some hrow, List.filterMap_cons_some hn, List.map_cons,
              List.map_cons, hr]
            exact ih.cons_cons _
  refine List.Nodup.sublist hsub (h.nodup.map_on ?_)
  intro as has bs hbs heq
  exact Utf8.lossy_injOn_ascii (h.ascii as has) (h.ascii bs hbs) heq

/-! ## Fixed arrays of fields -/

/-- `for (slot, token) in fields.iter_mut().zip(tokens)`: every slot that meets a token takes its
value. `none` is `continue 'lines`. -/
def fillFields (rd : Readers) : List UInt64 → List Bytes → Option (List UInt64)
  | _ :: slots, token :: tokens =>
      match parseU64 rd (some token) with
      | .ok value => (fillFields rd slots tokens).map (value :: ·)
      | .error _ => none
  | slots, _ => some slots

/-- Slots that meet a numeral take its value, slots beyond the numerals keep theirs, numerals
beyond the slots are not looked at. -/
theorem fillFields_decimals {rd : Readers} (hrd : rd.ReadsDecimals) (slots values : List UInt64) :
    fillFields rd slots (values.map decimal) =
      some (values.take slots.length ++ slots.drop values.length) := by
  induction slots generalizing values with
  | nil => cases values <;> simp [fillFields]
  | cons slot slots ih =>
      cases values with
      | nil => simp [fillFields]
      | cons value values => simp [fillFields, parseU64_decimal hrd, ih]

/-- A field that a token fills holds its value, a field beyond the tokens holds 0. -/
theorem getD_fields (values : List UInt64) {n i : Nat} (hi : i < n) :
    (values.take n ++ (List.replicate n 0).drop values.length).getD i 0 = values.getD i 0 := by
  rw [List.getD_eq_getElem?_getD, List.getD_eq_getElem?_getD]
  by_cases hlen : i < values.length
  · rw [List.getElem?_append_left (by simp; omega), List.getElem?_take_of_lt hi]
  · -- beyond the tokens the field is still one of the zeros of the array
    rw [List.getElem?_append_right (by simp; omega), List.getElem?_eq_none (by omega : _ ≤ i)]
    cases hzero : ((List.replicate n (0 : UInt64)).drop values.length)[i - (values.take n).length]?
      with
    | none => rfl
    | some value =>
        have hmem := List.mem_of_mem_drop (List.mem_of_getElem? hzero)
        exact List.eq_of_mem_replicate hmem

/-! ## Tables as the kernel prints them -/

/-- The characters `u8::is_ascii_whitespace` accepts. -/
def asciiBlanks : List Char := [' ', '\t', '\n', Char.ofNat 12, '\r']

/-- A blank octet is a blank character, and the only one with its code. -/
theorem mem_asciiBlanks {c : Char} {b : UInt8} (hb : isAsciiWhitespace b = true)
    (hc : c.toNat = b.toNat) : c ∈ asciiBlanks := by
  rw [← Char.ofNat_toNat c, hc]
  rcases isAsciiWhitespace_cases hb with rfl | rfl | rfl | rfl | rfl <;> decide

/-- A name the kernel prints as one token: UTF-8 text, not empty, free of ASCII whitespace. -/
structure TokenName where
  text : String
  ne_empty : text ≠ ""
  no_blank : ∀ c ∈ text.toList, c ∉ asciiBlanks

namespace TokenName

/-- The octets of the name. -/
def octets (name : TokenName) : Bytes := Utf8.encode name.text

/-- The octets of a name make one token: the octets of characters beyond ASCII are never blanks. -/
theorem isToken (name : TokenName) : IsToken isAsciiWhitespace name.octets where
  ne_nil := Utf8.encode_ne_nil name.ne_empty
  no_sep b hb := by
    rw [Bool.eq_false_iff]
    intro hblank
    -- a blank octet is one of the five blanks of the text, which the name is free of
    have hascii : b.toNat < 0x80 := by
      rcases isAsciiWhitespace_cases hblank with rfl | rfl | rfl | rfl | rfl <;> decide
    obtain ⟨c, hc, hcb⟩ := Utf8.mem_encode_ascii hb hascii
    exact name.no_blank c hc (mem_asciiBlanks hblank hcb)

@[simp]
theorem lossy_octets (name : TokenName) : Utf8.lossy name.octets = name.text :=
  Utf8.lossy_encode name.text

end TokenName

/-- **A printed table reads back.** The lines render the rows in order among junk lines; a row
reader that reads the rendered rows and skips junk and empty lines gives the rows. -/
theorem parseLines_unlines {ρ σ : Type} {renders : ρ → Bytes → Prop} {junk : Bytes → Prop}
    {row : Bytes → Option σ} {value : ρ → σ} {rs : List ρ} {ls : List Bytes}
    (htable : Interleaved renders junk rs ls) (hlines : ∀ l ∈ ls, newline ∉ l)
    (hrow : ∀ r l, renders r l → row l = some (value r)) (hjunk : ∀ l, junk l → row l = none)
    (hempty : row [] = none) : parseLines row (unlines ls) = rs.map value := by
  rw [parseLines_eq, filterMap_lines_unlines hempty hlines]
  exact htable.filterMap_eq hrow hjunk

end MetricsExporter.Procfs
