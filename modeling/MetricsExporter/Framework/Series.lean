/-
# MetricsExporter.Framework.Series -- points and the time series they belong to

A point belongs to the time series of its metric name and its set of attributes. Two groups never
meet in a series when their values have no name in common or their attribute sets differ.
-/
import MetricsExporter.Framework.Sample
import Mathlib.Data.Finset.Basic
import Mathlib.Data.Finset.Dedup

namespace MetricsExporter.Framework

/-- The time series of a sample. -/
def Sample.series (s : Sample) : String × Finset KeyValue := (s.name, s.attrs.toFinset)

/-- The attribute keys of a group. -/
def SampleGroup.keys (group : SampleGroup) : List String := group.attrs.map KeyValue.key

/-- The metric names of a group. -/
def SampleGroup.names (group : SampleGroup) : List String := group.values.map SampleValue.name

/-- No value of the one group is in the series of a value of the other. -/
def Separate (g g' : SampleGroup) : Prop :=
  ∀ name, name ∈ g.names → name ∈ g'.names → g.attrs.toFinset ≠ g'.attrs.toFinset

/-- The series of a group: its names, all with one set of attributes. -/
theorem map_series_samples (group : SampleGroup) :
    group.samples.map Sample.series = group.names.map fun name => (name, group.attrs.toFinset) := by
  simp [SampleGroup.samples, SampleGroup.names, Sample.series]

/-- **Points of distinct series.** Groups that push no name twice and are pairwise separate have no
two samples of one series. -/
theorem nodup_series {groups : List SampleGroup} (hnames : ∀ g ∈ groups, g.names.Nodup)
    (hseparate : groups.Pairwise Separate) : ((samples groups).map Sample.series).Nodup := by
  have hmap : (samples groups).map Sample.series =
      groups.flatMap fun g => g.names.map fun name => (name, g.attrs.toFinset) := by
    rw [samples, List.map_flatMap]
    exact List.flatMap_congr fun g _ => map_series_samples g
  rw [hmap, List.nodup_flatMap]
  constructor
  · intro g hg
    exact (hnames g hg).map fun _ _ h => (Prod.mk.inj h).1
  · refine hseparate.imp ?_
    intro g g' hsep point hpoint hpoint'
    obtain ⟨name, hname, rfl⟩ := List.mem_map.mp hpoint
    obtain ⟨name', hname', heq⟩ := List.mem_map.mp hpoint'
    obtain ⟨rfl, hattrs⟩ := Prod.mk.inj heq
    exact hsep name' hname hname' hattrs.symm

/-- Attribute sets without a repeated key agree on the attribute of each key they share. -/
theorem attr_eq_of_toFinset_eq {as bs : List KeyValue} (h : as.toFinset = bs.toFinset)
    (hkeys : (bs.map KeyValue.key).Nodup) {a b : KeyValue} (ha : a ∈ as) (hb : b ∈ bs)
    (hkey : a.key = b.key) : a = b := by
  have hmem : a ∈ bs := by
    rw [← List.mem_toFinset, ← h, List.mem_toFinset]
    exact ha
  exact List.inj_on_of_nodup_map hkeys hmem hb hkey

/-- Groups that differ in the attribute of some key are separate. -/
theorem separate_of_attr {g g' : SampleGroup} (hkeys : g'.keys.Nodup) {a b : KeyValue}
    (ha : a ∈ g.attrs) (hb : b ∈ g'.attrs) (hkey : a.key = b.key) (hne : a ≠ b) :
    Separate g g' := by
  intro name _ _ hattrs
  exact hne (attr_eq_of_toFinset_eq hattrs hkeys ha hb hkey)

/-- Groups without a common metric name are separate. -/
theorem separate_of_disjoint {g g' : SampleGroup} (h : g.names.Disjoint g'.names) :
    Separate g g' := by
  intro name hname hname' _
  exact h hname hname'

end MetricsExporter.Framework
