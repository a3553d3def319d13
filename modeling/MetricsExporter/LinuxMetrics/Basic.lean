/-
# MetricsExporter.LinuxMetrics.Basic -- units and filters shared by the collectors

The two units of the crate, the compiled pattern sets of its filters, and what the results about
conversions share: a product in `u64` is exact when it fits, and in no other case.

A pattern set is what it matches. How the patterns are compiled and what they mean is the `regex`
crate's, and no filter of this crate looks further.
-/
import MetricsExporter.Framework.Sample
import MetricsExporter.LinuxMetrics.Names
import Mathlib.Algebra.Group.Nat.Defs

namespace MetricsExporter.LinuxMetrics

open MetricsExporter.Framework

/-- Bytes per kilobyte as reported by the proc filesystem. -/
def bytesPerKb : UInt64 := 1024

/-- Kernel clock ticks per second for CPU times. -/
def userHz : Float := 100.0

/-- A compiled set of patterns, by what it matches. -/
structure RegexSet where
  isMatch : String → Bool

/-- `KeyValue::new` with a string value. -/
def KeyValue.string (key value : String) : KeyValue := ⟨key, .string value⟩

/-- A product that fits in a `u64` is exact. -/
theorem toNat_mul_of_fits {a b : UInt64} (h : a.toNat * b.toNat < UInt64.size) :
    (a * b).toNat = a.toNat * b.toNat := by
  rw [UInt64.toNat_mul]
  exact Nat.mod_eq_of_lt h

/-- Only a product that fits is. -/
theorem toNat_mul_eq_iff (a b : UInt64) :
    (a * b).toNat = a.toNat * b.toNat ↔ a.toNat * b.toNat < 2 ^ 64 := by
  constructor
  · intro h
    rw [← h]
    exact (a * b).toNat_lt
  · exact toNat_mul_of_fits

/-- Every integer of the readings fits in a `u64`. -/
def FitU64 (readings : List (String × Option Nat)) : Prop :=
  ∀ r ∈ readings, ∀ n ∈ r.2, n < 2 ^ 64

instance (readings : List (String × Option Nat)) : Decidable (FitU64 readings) :=
  inferInstanceAs (Decidable (∀ r ∈ readings, ∀ n ∈ r.2, n < 2 ^ 64))

@[simp]
theorem fitU64_nil : FitU64 [] := by simp [FitU64]

@[simp]
theorem fitU64_cons (name : String) (n : Nat) (rs : List (String × Option Nat)) :
    FitU64 ((name, some n) :: rs) ↔ n < 2 ^ 64 ∧ FitU64 rs := by
  simp [FitU64]

end MetricsExporter.LinuxMetrics
