import Formulary.Kernel

/-!
# The kernel cache

Making a kernel ready is remembered by program, domain and tolerance. The cache keeps the most
recently requested kernels, up to its capacity, and counts how often a request was met. Kernels are
known by their number, so that a host can tell whether two requests gave the same one.
-/

namespace Formulary

/-- A map that keeps the entries requested most recently, the latest first. -/
structure RecentMap (κ ν : Type) where
  capacity : Nat
  entries : List (κ × ν) := []
  hits : Nat := 0
  misses : Nat := 0

namespace RecentMap

variable {κ ν : Type}

/-- The first entry whose key meets a condition, and the entries without it. -/
def extract (matching : κ → Bool) : List (κ × ν) → Option ((κ × ν) × List (κ × ν))
  | [] => none
  | entry :: rest =>
    if matching entry.1 then some (entry, rest)
    else (extract matching rest).map fun (found, others) => (found, entry :: others)

/-- The value under a key. A hit moves the entry to the front; a miss makes a new value and drops
the entry that was not requested for the longest time when there is no room. -/
def request (same : κ → κ → Bool) (map : RecentMap κ ν) (key : κ) (make : Unit → ν) :
    ν × RecentMap κ ν :=
  match extract (same key) map.entries with
  | some (found, others) =>
    (found.2, { map with entries := found :: others, hits := map.hits + 1 })
  | none =>
    let made := make ()
    (made,
      { map with entries := ((key, made) :: map.entries).take map.capacity
                 misses := map.misses + 1 })

/-- The number of entries. -/
def size (map : RecentMap κ ν) : Nat := map.entries.length

/-- The map without entries and counts. -/
def cleared (map : RecentMap κ ν) : RecentMap κ ν := { capacity := map.capacity }

end RecentMap

/-- What a kernel is remembered by. -/
structure KernelKey where
  program : Program
  domain : Domain
  tolerance : Constant

/-- Whether two keys are the same. -/
def KernelKey.same (left right : KernelKey) : Bool :=
  left.program.same right.program && left.domain == right.domain
    && left.tolerance.same right.tolerance

/-- The kernel of a key. -/
def KernelKey.kernel (key : KernelKey) : Kernel :=
  ⟨key.program, key.domain, key.tolerance.value⟩

/-- How often the compiled forms of a kernel were asked for, for one point and for many. The first
request makes the form ready. -/
structure KernelUse where
  single : Nat := 0
  batch : Nat := 0

/-- A kernel that was made ready, with the record of its use. -/
structure ReadyKernel where
  kernel : Kernel
  use : KernelUse := {}

/-- The requests that made a form ready, out of all requests for it. -/
def firstUses (uses : Nat) : Nat := min uses 1

/-- The capacity of the cache. -/
def kernelCapacity : Nat := 64

/-- All kernels made ready so far, and the cache of their numbers. -/
structure KernelCache where
  ready : Array ReadyKernel := #[]
  recent : RecentMap KernelKey Nat := { capacity := kernelCapacity }

/-- What the cache tells about itself. -/
structure CacheFigures where
  hits : Nat
  misses : Nat
  size : Nat
  capacity : Nat
  deriving DecidableEq

namespace KernelCache

/-- The number of the kernel of a key. -/
def lower (cache : KernelCache) (key : KernelKey) : Nat × KernelCache :=
  let (number, recent) := cache.recent.request KernelKey.same key fun _ => cache.ready.size
  if number < cache.ready.size then (number, { cache with recent })
  else (number, { ready := cache.ready.push { kernel := key.kernel }, recent })

/-- Forgets the entries and the counts; kernels that were handed out stay usable. -/
def reset (cache : KernelCache) : KernelCache :=
  { cache with recent := cache.recent.cleared }

/-- The figures of the cache. They are taken before a reset that is asked for with them. -/
def stats (cache : KernelCache) (reset : Bool) : CacheFigures × KernelCache :=
  let figures :=
    { hits := cache.recent.hits
      misses := cache.recent.misses
      size := cache.recent.size
      capacity := kernelCapacity }
  (figures, if reset then cache.reset else cache)

/-- Notes one more use of a kernel. -/
def noteUse (cache : KernelCache) (number : Nat) (change : KernelUse → KernelUse) : KernelCache :=
  { cache with
    ready := cache.ready.modify number fun ready => { ready with use := change ready.use } }

end KernelCache

end Formulary
