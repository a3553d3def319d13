/-
# MetricsExporter.Framework.Coverage -- when the registered items cover what is sampled

A sample is reported by the instruments registered under its name and number variant, and by no
others. A list of items with distinct names that declares the signature of every sampled value
(`Covers`) therefore reports every sample exactly once.
-/
import MetricsExporter.Framework.Sample
import MetricsExporter.Lib.Keys

namespace MetricsExporter.Framework

open MetricsExporter.Lib

/-- The name of a value together with its number variant. -/
abbrev Signature := String × Variant

/-- That of a value pushed to a group. -/
def SampleValue.signature (v : SampleValue) : Signature := (v.name, v.value.variant)

/-- That of a sample. -/
def Sample.signature (s : Sample) : Signature := (s.name, s.value.variant)

/-- That of an instrument, by its kind. -/
def MetricItem.signature (item : MetricItem) : Signature := (item.name, item.kind.variant)

/-- What the callback of an instrument reports, under the name of the instrument. -/
def Instrument.reports (inst : Instrument) (cache : List SampleGroup) : List Sample :=
  (inst.callback cache).map fun o => ⟨inst.name, o.value, o.attrs⟩

/-- What one run of every callback reports. -/
def reports (instruments : List Instrument) (cache : List SampleGroup) : List Sample :=
  instruments.flatMap fun inst => inst.reports cache

/-- Distinct items that declare every value of the cached groups. -/
structure Covers (items : List MetricItem) (cache : List SampleGroup) : Prop where
  nodup_names : (items.map MetricItem.name).Nodup
  declared : ∀ group ∈ cache, ∀ v ∈ group.values, v.signature ∈ items.map MetricItem.signature

/-- **An item reports the samples of its signature.** -/
theorem reports_registerItem (item : MetricItem) (cache : List SampleGroup) :
    (registerItem item).reports cache =
      (samples cache).filter (fun s => decide (s.signature = item.signature)) := by
  have hname : (registerItem item).name = item.name := rfl
  rw [Instrument.reports, registerItem_callback, hname, observations]
  induction samples cache with
  | nil => rfl
  | cons s ss ih =>
      rw [List.filter_cons, List.filter_cons]
      by_cases hs : s.signature = item.signature
      · obtain ⟨hsname, hsvariant⟩ := Prod.mk.inj hs
        have hreported : Sample.reportedAs item.name item.kind.variant s = true := by
          simp [Sample.reportedAs, hsname, hsvariant]
        simp only [hreported, hs, if_true, decide_true, List.map_cons, ih, Sample.observation]
        rw [← hsname]
      · have hreported : Sample.reportedAs item.name item.kind.variant s = false := by
          rw [Bool.eq_false_iff]
          intro htrue
          simp only [Sample.reportedAs, Bool.and_eq_true, beq_iff_eq] at htrue
          exact hs (Prod.ext htrue.1 htrue.2)
        simp [hreported, hs, ih]

/-- A sample is a value of a cached group, with the attributes of the group. -/
theorem mem_samples {s : Sample} {cache : List SampleGroup} :
    s ∈ samples cache ↔
      ∃ group ∈ cache, ∃ v ∈ group.values, s = ⟨v.name, v.value, group.attrs⟩ := by
  simp [samples, SampleGroup.samples, eq_comm]

/-- An item whose signature is pushed reports something. -/
theorem callback_ne_nil {item : MetricItem} {cache : List SampleGroup} {group : SampleGroup}
    (hgroup : group ∈ cache) {v : SampleValue} (hv : v ∈ group.values)
    (hsignature : v.signature = item.signature) : (registerItem item).callback cache ≠ [] := by
  intro hnil
  have hreports := reports_registerItem item cache
  rw [Instrument.reports, hnil, List.map_nil, eq_comm, List.filter_eq_nil_iff] at hreports
  have hsample : (⟨v.name, v.value, group.attrs⟩ : Sample) ∈ samples cache :=
    mem_samples.mpr ⟨group, hgroup, v, hv, rfl⟩
  exact hreports _ hsample (decide_eq_true hsignature)

namespace Covers

variable {items : List MetricItem} {cache : List SampleGroup}

/-- Distinct names make distinct signatures. -/
theorem nodup_signatures (hcovers : Covers items cache) :
    (items.map MetricItem.signature).Nodup := by
  have hfst : (items.map MetricItem.signature).map Prod.fst = items.map MetricItem.name := by
    rw [List.map_map]
    rfl
  exact List.Nodup.of_map Prod.fst (hfst ▸ hcovers.nodup_names)

/-- **Nothing is lost or doubled.** One run of every callback reports the samples of the cache, each
as often as it occurs there. -/
theorem reports_perm (hcovers : Covers items cache) :
    (reports (items.map registerItem) cache).Perm (samples cache) := by
  rw [reports, List.flatMap_map]
  simp only [reports_registerItem]
  apply flatMap_filter_perm Sample.signature hcovers.nodup_signatures
  intro s hs
  obtain ⟨group, hgroup, v, hv, rfl⟩ := mem_samples.mp hs
  exact hcovers.declared group hgroup v hv

/-- **One item for each value.** Exactly one item has the name of a sampled value, and its kind is
that of the value. -/
theorem filter_name (hcovers : Covers items cache) {group : SampleGroup} (hgroup : group ∈ cache)
    {v : SampleValue} (hv : v ∈ group.values) :
    ∃ item, items.filter (fun item => item.name == v.name) = [item] ∧
      item.kind.variant = v.value.variant := by
  obtain ⟨item, hitem, hsignature⟩ := List.mem_map.mp (hcovers.declared group hgroup v hv)
  obtain ⟨hname, hvariant⟩ := Prod.mk.inj hsignature
  refine ⟨item, ?_, hvariant⟩
  rw [← hname]
  exact filter_key_eq_singleton hcovers.nodup_names hitem

end Covers

end MetricsExporter.Framework
