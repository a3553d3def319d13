/-
# MetricsExporter.Framework.Sample -- metric items, sampled groups and the observation loops

What a collector declares (`MetricItem`), what it produces (`SampleGroup`), and what the callback of
a registered instrument reports from the cached groups (`observeU64`, `observeF64`). The loops are
as the source has them; `observe_eq` says what they report, and the rest of the development speaks
of that (`observations`) only.

An instrument of the meter is what it is built from: its name, its kind, its texts and its callback.
What the meter does with the calls `inst.observe(v, &group.attrs)` is left out here, and so is how a
`SmallVec` stores its elements, other than by its length (`SampleGroup.Inline`).
-/
import MetricsExporter.Lib.Loops

namespace MetricsExporter.Framework

open MetricsExporter.Lib

/-- A sampled measurement value. -/
inductive Number where
  | u64 (v : UInt64)
  | f64 (v : Float)

/-- Instrument kind. -/
inductive ItemKind where
  | counterU64
  | counterF64
  | gaugeU64
  | gaugeF64
  deriving DecidableEq, Repr

/-- A metric item definition. -/
structure MetricItem where
  itemType : UInt16
  name : String
  kind : ItemKind
  unit : String
  description : String
  deriving DecidableEq, Repr

/-- An attribute value of the types the collectors build. -/
inductive AttrValue where
  | string (s : String)
  | i64 (i : Int64)
  | bool (b : Bool)
  deriving DecidableEq

structure KeyValue where
  key : String
  value : AttrValue
  deriving DecidableEq

/-- A single sampled value inside a group. -/
structure SampleValue where
  name : String
  value : Number

/-- A batch of values sharing the same attributes. -/
structure SampleGroup where
  attrs : List KeyValue
  values : List SampleValue

namespace SampleGroup

def withAttrs (attrs : List KeyValue) : SampleGroup := { attrs, values := [] }

def push (group : SampleGroup) (name : String) (value : Number) : SampleGroup :=
  { group with values := group.values ++ [⟨name, value⟩] }

@[simp]
theorem withAttrs_attrs (attrs : List KeyValue) : (withAttrs attrs).attrs = attrs := rfl

@[simp]
theorem withAttrs_values (attrs : List KeyValue) : (withAttrs attrs).values = [] := rfl

@[simp]
theorem push_attrs (group : SampleGroup) (name : String) (value : Number) :
    (group.push name value).attrs = group.attrs := rfl

@[simp]
theorem push_values (group : SampleGroup) (name : String) (value : Number) :
    (group.push name value).values = group.values ++ [⟨name, value⟩] := rfl

end SampleGroup

/-- The inline capacities of `SampleGroup::attrs` and `SampleGroup::values`. -/
def attrsCapacity : Nat := 4

def valuesCapacity : Nat := 16

/-- A group that fits in its inline buffers. A `SmallVec` moves to the heap when one more element is
pushed than its buffer holds, and not before, so that it is the lengths that decide. -/
structure SampleGroup.Inline (group : SampleGroup) : Prop where
  attrs_le : group.attrs.length ≤ attrsCapacity
  values_le : group.values.length ≤ valuesCapacity

/-- Whether a group is inline is a question about its two lengths. -/
theorem SampleGroup.inline_iff (group : SampleGroup) :
    group.Inline ↔ group.attrs.length ≤ attrsCapacity ∧ group.values.length ≤ valuesCapacity :=
  ⟨fun h => ⟨h.attrs_le, h.values_le⟩, fun h => ⟨h.1, h.2⟩⟩

/-- The number an integer value holds. -/
def Number.nat? : Number → Option Nat
  | .u64 v => some v.toNat
  | .f64 _ => none

/-- The name and the integer value of a sample. -/
def SampleValue.reading (v : SampleValue) : String × Option Nat := (v.name, v.value.nat?)

/-- The readings of a group, in order. -/
def SampleGroup.readings (group : SampleGroup) : List (String × Option Nat) :=
  group.values.map SampleValue.reading

/-! ## The observation loops -/

/-- `Number::U64(v)` as a pattern. -/
def Number.asU64 : Number → Option UInt64
  | .u64 v => some v
  | .f64 _ => none

/-- `Number::F64(v)` as a pattern. -/
def Number.asF64 : Number → Option Float
  | .u64 _ => none
  | .f64 v => some v

/-- The loop of `observe_u64` and `observe_f64`: the calls `inst.observe(v, &group.attrs)`, in
order. The two differ in the pattern a value has to match. -/
def observe {ν : Type} (pattern : Number → Option ν) (cache : List SampleGroup) (name : String) :
    List (ν × List KeyValue) := Id.run do
  let mut observed := []
  for group in cache do
    for value in group.values do
      if value.name == name then
        if let some v := pattern value.value then
          observed := observed ++ [(v, group.attrs)]
  return observed

/-- The callback of the integer kinds: values of the other variant are passed over, under the same
name or not. -/
def observeU64 (cache : List SampleGroup) (name : String) : List (UInt64 × List KeyValue) :=
  observe Number.asU64 cache name

def observeF64 (cache : List SampleGroup) (name : String) : List (Float × List KeyValue) :=
  observe Number.asF64 cache name

/-- One measurement reported to an instrument. -/
structure Observation where
  value : Number
  attrs : List KeyValue

/-- A registered instrument: what the meter is told and the callback it runs. -/
structure Instrument where
  name : String
  kind : ItemKind
  unit : String
  description : String
  callback : List SampleGroup → List Observation

/-- The callback with `observe_u64`. -/
def callbackU64 (name : String) (cache : List SampleGroup) : List Observation :=
  (observeU64 cache name).map fun (v, attrs) => ⟨.u64 v, attrs⟩

/-- The callback with `observe_f64`. -/
def callbackF64 (name : String) (cache : List SampleGroup) : List Observation :=
  (observeF64 cache name).map fun (v, attrs) => ⟨.f64 v, attrs⟩

/-- `register_item`: the callback captures the name of the item. -/
def registerItem (item : MetricItem) : Instrument :=
  { name := item.name
    kind := item.kind
    unit := item.unit
    description := item.description
    callback := match item.kind with
      | .counterU64 => callbackU64 item.name
      | .counterF64 => callbackF64 item.name
      | .gaugeU64 => callbackU64 item.name
      | .gaugeF64 => callbackF64 item.name }

/-! ## What the loops report -/

/-- The two `Number` variants. -/
inductive Variant where
  | u64
  | f64
  deriving DecidableEq, Repr

def Number.variant : Number → Variant
  | .u64 _ => .u64
  | .f64 _ => .f64

/-- The variant whose values an instrument of this kind reports. -/
def ItemKind.variant : ItemKind → Variant
  | .counterU64 | .gaugeU64 => .u64
  | .counterF64 | .gaugeF64 => .f64

/-- A sampled value with its metric name and the attributes of its group. -/
structure Sample where
  name : String
  value : Number
  attrs : List KeyValue

/-- The samples of a group. -/
def SampleGroup.samples (group : SampleGroup) : List Sample :=
  group.values.map fun v => ⟨v.name, v.value, group.attrs⟩

/-- The samples of all groups, in order. -/
def samples (cache : List SampleGroup) : List Sample := cache.flatMap SampleGroup.samples

/-- What one value of a group adds to the calls. -/
def observedOf {ν : Type} (pattern : Number → Option ν) (name : String) (attrs : List KeyValue)
    (value : SampleValue) : List (ν × List KeyValue) :=
  if value.name == name then ((pattern value.value).map fun v => (v, attrs)).toList else []

/-- The inner loop goes once over the values of a group. -/
theorem observe_group {ν : Type} (pattern : Number → Option ν) (name : String)
    (group : SampleGroup) (observed : List (ν × List KeyValue)) :
    group.values.foldl (fun out value => out ++ observedOf pattern name group.attrs value)
        observed =
      observed ++ (group.samples.filter (fun s => s.name == name)).filterMap
        (fun s => (pattern s.value).map fun v => (v, s.attrs)) := by
  rw [foldl_gather]
  refine congrArg (observed ++ ·) ?_
  rw [SampleGroup.samples, List.filter_map, List.filterMap_map]
  -- value by value, as the loop goes
  induction group.values with
  | nil => rfl
  | cons value values ih =>
      rw [List.flatMap_cons, ih, observedOf, List.filter_cons]
      by_cases hname : value.name == name
      · cases hpattern : pattern value.value <;> simp [hname, hpattern]
      · simp [hname]

/-- **The calls of an observation loop**: the samples of the name whose value matches, in order,
each with the attributes of its own group. -/
theorem observe_eq {ν : Type} (pattern : Number → Option ν) (cache : List SampleGroup)
    (name : String) :
    observe pattern cache name =
      ((samples cache).filter (fun s => s.name == name)).filterMap
        (fun s => (pattern s.value).map fun v => (v, s.attrs)) := by
  unfold observe
  dsimp only
  rw [id_forIn (fun observed group => observed ++ (group.samples.filter
    (fun s => s.name == name)).filterMap (fun s => (pattern s.value).map fun v => (v, s.attrs)))]
  · rw [samples, List.filter_flatMap, List.filterMap_flatMap]
    exact foldl_gather _ cache []
  · intro group observed
    rw [id_forIn (fun out value => out ++ observedOf pattern name group.attrs value),
      observe_group]
    · rfl
    · intro value out
      unfold observedOf
      by_cases hname : value.name == name
      · cases pattern value.value <;> simp [hname]
      · simp [hname]

/-- The samples an instrument of this name and variant reports. -/
def Sample.reportedAs (name : String) (variant : Variant) (s : Sample) : Bool :=
  s.name == name && s.value.variant == variant

/-- A sample as it is reported: the name is that of the instrument. -/
def Sample.observation (s : Sample) : Observation := ⟨s.value, s.attrs⟩

/-- What an instrument of this name and variant reports of the cached groups. -/
def observations (name : String) (variant : Variant) (cache : List SampleGroup) :
    List Observation :=
  ((samples cache).filter (Sample.reportedAs name variant)).map Sample.observation

/-- Measurements of a pattern that accepts exactly one variant, wrapped back into numbers. -/
theorem map_observe_eq {ν : Type} {pattern : Number → Option ν} (wrap : ν → Number)
    {variant : Variant} (haccept : ∀ v, pattern (wrap v) = some v)
    (hvariant : ∀ n, n.variant = variant ↔ ∃ v, n = wrap v)
    (hreject : ∀ n, n.variant ≠ variant → pattern n = none)
    (cache : List SampleGroup) (name : String) :
    (observe pattern cache name).map (fun (v, attrs) => (⟨wrap v, attrs⟩ : Observation)) =
      observations name variant cache := by
  rw [observe_eq, observations]
  induction samples cache with
  | nil => rfl
  | cons s ss ih =>
      rw [List.filter_cons, List.filter_cons, Sample.reportedAs]
      by_cases hname : s.name == name
      · by_cases hs : s.value.variant = variant
        · obtain ⟨v, hv⟩ := (hvariant s.value).mp hs
          have hpattern : pattern s.value = some v := by rw [hv, haccept]
          simp only [hname, hs, beq_self_eq_true, Bool.and_self, if_true, List.map_cons,
            List.filterMap_cons, hpattern, Option.map_some, ih]
          rw [Sample.observation, hv]
        · simp [hname, hs, hreject s.value hs, ih]
      · simp [hname, ih]

/-- The callback of the integer kinds reports the integer samples of its name. -/
theorem callbackU64_eq (name : String) (cache : List SampleGroup) :
    callbackU64 name cache = observations name .u64 cache := by
  have haccept : ∀ v, Number.asU64 (.u64 v) = some v := fun _ => rfl
  refine map_observe_eq Number.u64 haccept ?_ ?_ cache name
  · intro n
    cases n <;> simp [Number.variant]
  · intro n hn
    cases n <;> simp_all [Number.variant, Number.asU64]

/-- The callback of the float kinds reports the float samples of its name. -/
theorem callbackF64_eq (name : String) (cache : List SampleGroup) :
    callbackF64 name cache = observations name .f64 cache := by
  have haccept : ∀ v, Number.asF64 (.f64 v) = some v := fun _ => rfl
  refine map_observe_eq Number.f64 haccept ?_ ?_ cache name
  · intro n
    cases n <;> simp [Number.variant]
  · intro n hn
    cases n <;> simp_all [Number.variant, Number.asF64]

/-- **The callback of a registered item** reports the samples of its name and variant, in order,
each with the attributes of its own group. -/
theorem registerItem_callback (item : MetricItem) (cache : List SampleGroup) :
    (registerItem item).callback cache = observations item.name item.kind.variant cache := by
  unfold registerItem
  cases item.kind with
  | counterU64 => exact callbackU64_eq item.name cache
  | counterF64 => exact callbackF64_eq item.name cache
  | gaugeU64 => exact callbackU64_eq item.name cache
  | gaugeF64 => exact callbackF64_eq item.name cache

end MetricsExporter.Framework
