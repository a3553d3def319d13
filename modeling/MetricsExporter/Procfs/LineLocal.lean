/-
# MetricsExporter.Procfs.LineLocal -- a line of a table decides about its own row only

The three tolerant parsers read a table line by line and carry nothing from one line to the next.
`LineLocal` says so of what they list, about files cut at any line feed and about files in which one
line is put in, taken out or overwritten.
-/
import MetricsExporter.Procfs.Cpu
import MetricsExporter.Procfs.Diskstats
import MetricsExporter.Procfs.Net

namespace MetricsExporter.Procfs

open MetricsExporter.Lib

/-- The rows of a content come line by line: `append` cuts it at a line feed, and the others compare
the contents that differ in a single line, which are those of the lines `pre ++ l :: post` for the
various `l` and of the lines `pre ++ post`. -/
structure LineLocal {ρ : Type} (rows : Bytes → List ρ) : Prop where
  append : ∀ a b, rows (a ++ newline :: b) = rows a ++ rows b
  line : ∀ l, newline ∉ l → (rows l).length ≤ 1
  overwrite : ∀ pre l post, (∀ l' ∈ pre ++ l :: post, newline ∉ l') →
    rows (unlines (pre ++ l :: post)) = pre.flatMap rows ++ rows l ++ post.flatMap rows
  delete : ∀ pre post, (∀ l' ∈ pre ++ post, newline ∉ l') →
    rows (unlines (pre ++ post)) = pre.flatMap rows ++ post.flatMap rows

section

variable {ρ : Type} {row : Bytes → Option ρ}

/-- Cutting a content at a line feed cuts its rows. -/
theorem parseLines_append (a b : Bytes) :
    parseLines row (a ++ newline :: b) = parseLines row a ++ parseLines row b := by
  simp only [parseLines_eq, lines, List.splitOn_append_cons_self, List.filterMap_append]

/-- A content of one line has at most the row of that line. -/
theorem parseLines_line {l : Bytes} (hl : newline ∉ l) :
    parseLines row l = (row l).toList := by
  rw [parseLines_eq, lines, List.splitOn_eq_singleton hl]
  cases hrow : row l <;> simp [hrow]

/-- The rows of some lines are those of each of them on its own. -/
theorem parseLines_unlines_eq (hempty : row [] = none) {ls : List Bytes}
    (hlines : ∀ l ∈ ls, newline ∉ l) :
    parseLines row (unlines ls) = ls.flatMap (parseLines row) := by
  rw [parseLines_eq, filterMap_lines_unlines hempty hlines, List.filterMap_eq_flatMap_toList]
  exact List.flatMap_congr fun l hl => (parseLines_line (hlines l hl)).symm

/-- **The shared loop is line-local**, if an empty line has no row. -/
theorem parseLines_lineLocal (hempty : row [] = none) : LineLocal (parseLines row) where
  append := parseLines_append
  line l hl := by
    rw [parseLines_line hl]
    cases row l <;> simp
  overwrite pre l post hlines := by
    rw [parseLines_unlines_eq hempty hlines, List.flatMap_append, List.flatMap_cons,
      List.append_assoc]
  delete pre post hlines := by
    rw [parseLines_unlines_eq hempty hlines, List.flatMap_append]

end

/-- **The tolerant table parsers are line-local.** -/
theorem tables_lineLocal (rd : Readers) :
    LineLocal (fun content => (DevStats.parseDev rd content).interfaces) ∧
    LineLocal (fun content => (DiskStats.parseDiskstats rd content).disks) ∧
    LineLocal (fun content => (CpuStat.parseStat rd content).cpus) :=
  ⟨parseLines_lineLocal rfl, parseLines_lineLocal rfl, parseLines_lineLocal rfl⟩

end MetricsExporter.Procfs
