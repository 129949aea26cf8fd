import Formulary.Proofs.CacheTransparency
import Formulary.Proofs.Histories
import Formulary.Proofs.KeyEquivalence

/-!
# What the kernel cache gives again, and what it counts

A host lowers formulas and asks for the figures of the cache, with a reset or without one, in any
order. What is told about such calls depends on the keys that were requested since the last reset,
and on nothing else: `Logs` relates the cache to them, every call keeps it, and so a whole session
has it.

A kernel that was given is given again for an equal key as long as no reset and fewer other keys
than the capacity came in between. A kernel that is made anew has a number that was never given.
-/

namespace Formulary

/-! ## Calls and replies -/

/-- What a host asks of the kernel cache. -/
inductive CacheCall
  | lower (formula : Formula) (domain : Domain)
  | stats (reset : Bool)

/-- What a host is told: the number of a kernel, why there is none, or the figures. -/
inductive CacheReply
  | kernel (number : Nat)
  | refused (failure : StateError)
  | figures (figures : CacheFigures)

namespace CacheCall

/-- The key that a call requests. A formula that cannot be used has none. -/
def key? : CacheCall → Option KernelKey
  | lower formula domain => (formula.kernelKey domain).toOption
  | stats _ => none

/-- Whether a call resets the cache. -/
def isReset : CacheCall → Bool
  | lower _ _ => false
  | stats reset => reset

/-- The keys that calls request, the latest first. -/
def requested (calls : List CacheCall) : List KernelKey :=
  calls.reverse.filterMap key?

/-- The keys that calls request after the last reset, the latest first. -/
def requestedSinceReset (calls : List CacheCall) : List KernelKey :=
  (calls.reverse.takeWhile fun call => !call.isReset).filterMap key?

theorem key?_lower_eq_some {formula : Formula} {domain : Domain} {key : KernelKey} :
    (CacheCall.lower formula domain).key? = some key ↔ formula.kernelKey domain = .ok key := by
  cases keyed : formula.kernelKey domain <;> simp [key?, keyed, Except.toOption]

theorem isReset_of_key? {call : CacheCall} {key : KernelKey} (requests : call.key? = some key) :
    call.isReset = false := by
  cases call with
  | lower => rfl
  | stats => cases requests

theorem requestedSinceReset_append (calls : List CacheCall) (call : CacheCall) :
    requestedSinceReset (calls ++ [call]) =
      call.key?.toList ++ if call.isReset then [] else requestedSinceReset calls := by
  rw [requestedSinceReset, List.reverse_append, List.reverse_singleton, List.singleton_append,
    List.takeWhile_cons]
  cases call with
  | lower formula domain =>
      change (CacheCall.lower formula domain :: _).filterMap key? = _
      rw [List.filterMap_cons]
      cases (CacheCall.lower formula domain).key? <;> rfl
  | stats reset => cases reset <;> rfl

/-- Without a reset all requests count. -/
theorem requestedSinceReset_of_steady {calls : List CacheCall}
    (steady : ∀ call ∈ calls, call.isReset = false) :
    requestedSinceReset calls = requested calls := by
  rw [requestedSinceReset, requested, List.takeWhile_eq_self_iff.mpr]
  intro call member
  rw [steady call (List.mem_reverse.mp member)]
  rfl

theorem mem_requested_of_sinceReset {calls : List CacheCall} {key : KernelKey}
    (member : key ∈ requestedSinceReset calls) : key ∈ requested calls :=
  ((List.takeWhile_sublist _).filterMap _).subset member

end CacheCall

open CacheCall (requested requestedSinceReset)

namespace KernelCache

/-- The reply to a call, and the cache after it. -/
def serve (cache : KernelCache) : CacheCall → CacheReply × KernelCache
  | .lower formula domain =>
    match formula.lower domain cache with
    | .ok (number, next) => (.kernel number, next)
    | .error failure => (.refused failure, cache)
  | .stats reset =>
    let (figures, next) := cache.stats reset
    (.figures figures, next)

/-- The cache after calls in order. -/
def serveAll (cache : KernelCache) (calls : List CacheCall) : KernelCache :=
  calls.foldl (fun current call => (current.serve call).2) cache

/-- The reply to a call after earlier ones. -/
def reply (earlier : List CacheCall) (call : CacheCall) : CacheReply :=
  ((serveAll {} earlier).serve call).1

variable {cache : KernelCache} {call : CacheCall} {key : KernelKey}

theorem serveAll_append (calls others : List CacheCall) :
    cache.serveAll (calls ++ others) = (cache.serveAll calls).serveAll others :=
  List.foldl_append

/-! ### What a call does -/

theorem serve_of_key? (requests : call.key? = some key) :
    cache.serve call = (.kernel (cache.lower key).1, (cache.lower key).2) := by
  cases call with
  | lower formula domain =>
      have keyed := CacheCall.key?_lower_eq_some.mp requests
      simp [serve, Formula.lower, keyed, bind, Except.bind]
  | stats => cases requests

theorem serve_of_no_key (none : call.key? = none) :
    (cache.serve call).2 = if call.isReset then cache.reset else cache := by
  cases call with
  | lower formula domain =>
      cases keyed : formula.kernelKey domain with
      | error => simp [serve, Formula.lower, keyed, bind, Except.bind, CacheCall.isReset]
      | ok =>
          rw [CacheCall.key?_lower_eq_some.mpr keyed] at none
          cases none
  | stats => rfl

/-- The entry that answers a key, or a new one under the next number. -/
def answer (cache : KernelCache) (key : KernelKey) : Nat × RecentMap KernelKey Nat :=
  cache.recent.request KernelKey.same key fun _ => cache.ready.size

theorem lower_eq (cache : KernelCache) (key : KernelKey) :
    cache.lower key =
      if (cache.answer key).1 < cache.ready.size then
        ((cache.answer key).1, { cache with recent := (cache.answer key).2 })
      else
        ((cache.answer key).1,
          { ready := cache.ready.push { kernel := key.kernel }, recent := (cache.answer key).2 }) :=
  rfl

theorem lower_fst (cache : KernelCache) (key : KernelKey) :
    (cache.lower key).1 = (cache.answer key).1 := by
  rw [lower_eq]
  split_ifs <;> rfl

theorem recent_lower (cache : KernelCache) (key : KernelKey) :
    (cache.lower key).2.recent = (cache.answer key).2 := by
  rw [lower_eq]
  split_ifs <;> rfl

theorem size_le_lower (cache : KernelCache) (key : KernelKey) :
    cache.ready.size ≤ (cache.lower key).2.ready.size := by
  rw [lower_eq]
  split_ifs
  · exact Nat.le_refl _
  · exact Nat.le_of_lt (by simp)

theorem lower_lt_size (fits : (cache.answer key).1 ≤ cache.ready.size) :
    (cache.lower key).1 < (cache.lower key).2.ready.size := by
  rw [lower_eq]
  split_ifs with known
  · exact known
  · simpa using Nat.lt_succ_of_le fits

theorem size_le_serve (cache : KernelCache) (call : CacheCall) :
    cache.ready.size ≤ (cache.serve call).2.ready.size := by
  cases requests : call.key? with
  | none =>
      rw [serve_of_no_key requests]
      split <;> exact Nat.le_refl _
  | some key =>
      rw [serve_of_key? requests]
      exact cache.size_le_lower key

/-- Kernels that were made stay. -/
theorem size_le_serveAll (cache : KernelCache) (calls : List CacheCall) :
    cache.ready.size ≤ (cache.serveAll calls).ready.size := by
  induction calls generalizing cache with
  | nil => exact Nat.le_refl _
  | cons call rest inductionHypothesis =>
      exact (cache.size_le_serve call).trans (inductionHypothesis _)

/-! ## The requests since the last reset -/

/-- The cache remembers the requests of a log, and the log has the numbers that were given. -/
structure Logs (objects : Nat → Number) (log : List (KernelKey × Nat)) (cache : KernelCache) :
    Prop where
  tracks : cache.recent.Tracks KernelKey.same (KernelKey.Genuine objects) log
  capacity : cache.recent.capacity = kernelCapacity
  given : ∀ request ∈ log, request.2 < cache.ready.size

namespace Logs

variable {objects : Nat → Number} {log : List (KernelKey × Nat)}

theorem start : Logs objects [] {} where
  tracks := RecentMap.tracks_empty kernelCapacity
  capacity := rfl
  given := nofun

theorem reset (logs : Logs objects log cache) : Logs objects [] cache.reset where
  tracks := RecentMap.tracks_empty cache.recent.capacity
  capacity := logs.capacity
  given := nofun

/-- What a cache gives was made before, or is made next. -/
theorem answer_le (logs : Logs objects log cache) (genuine : key.Genuine objects) :
    (cache.answer key).1 ≤ cache.ready.size := by
  rcases logs.tracks.request_cases genuine (fun _ => cache.ready.size) with
    ⟨one, member, same⟩ | new
  · exact same ▸ Nat.le_of_lt (logs.given one member)
  · exact Nat.le_of_eq new

theorem lower (logs : Logs objects log cache) (genuine : key.Genuine objects) :
    Logs objects ((key, (cache.lower key).1) :: log) (cache.lower key).2 := by
  have room : 0 < cache.recent.capacity := by rw [logs.capacity]; decide
  constructor
  · rw [lower_fst, recent_lower]
    exact logs.tracks.request (KernelKey.partialEquivalence objects) genuine room
  · rw [recent_lower, answer, RecentMap.capacity_request]
    exact logs.capacity
  · intro request member
    rcases List.mem_cons.mp member with rfl | before
    · exact lower_lt_size (logs.answer_le genuine)
    · exact (logs.given request before).trans_le (cache.size_le_lower key)

/-- Every call keeps the log of the requests since the last reset. -/
theorem serve (logs : Logs objects log cache) (call : CacheCall)
    (genuine : ∀ key ∈ call.key?, key.Genuine objects) :
    ∃ later, Logs objects (later ++ if call.isReset then [] else log) (cache.serve call).2 ∧
      later.map Prod.fst = call.key?.toList := by
  cases requests : call.key? with
  | none =>
      refine ⟨[], ?_, rfl⟩
      rw [serve_of_no_key requests]
      split_ifs
      · exact logs.reset
      · exact logs
  | some key =>
      rw [serve_of_key? requests, CacheCall.isReset_of_key? requests]
      exact ⟨[(key, _)], logs.lower (genuine key requests), rfl⟩

/-- A run of calls keeps the log of the requests since the last reset. -/
theorem serveAll (logs : Logs objects log cache) (calls : List CacheCall)
    (genuine : ∀ call ∈ calls, ∀ key ∈ call.key?, key.Genuine objects) :
    ∃ later, Logs objects (later ++ if calls.any CacheCall.isReset then [] else log)
        (cache.serveAll calls) ∧
      later.map Prod.fst = requestedSinceReset calls := by
  induction calls using List.reverseRecOn with
  | nil => exact ⟨[], logs, rfl⟩
  | append_singleton calls call inductionHypothesis =>
      obtain ⟨before, logsBefore, keysBefore⟩ := inductionHypothesis fun one member =>
        genuine one (List.mem_append_left _ member)
      obtain ⟨last, logsLast, keysLast⟩ := logsBefore.serve call (genuine call (by simp))
      rw [serveAll_append, CacheCall.requestedSinceReset_append, List.any_append, ← keysLast,
        ← keysBefore]
      refine ⟨last ++ if call.isReset then [] else before, ?_, ?_⟩
      · cases reset : call.isReset <;> simpa [reset, KernelCache.serveAll] using logsLast
      · split_ifs <;> simp

/-- Calls that request other keys do not take the kernel of a key away, unless one of them is a
reset or they request too many distinct keys. -/
theorem lower_again_iff (logs : Logs objects log cache) {other : KernelKey}
    {between : List CacheCall} (genuine : key.Genuine objects)
    (otherGenuine : other.Genuine objects)
    (betweenGenuine : ∀ call ∈ between, ∀ key ∈ call.key?, key.Genuine objects)
    (same : other.same key = true) (apart : ∀ one ∈ requested between, other.same one = false) :
    (((cache.lower key).2.serveAll between).lower other).1 = (cache.lower key).1 ↔
      (∀ call ∈ between, call.isReset = false) ∧
        ((requested between).eraseDupsBy KernelKey.same).length < kernelCapacity := by
  -- The next number is beyond all that were given, also those that were forgotten.
  have given := lower_lt_size (logs.answer_le genuine)
  have kept := (cache.lower key).2.size_le_serveAll between
  obtain ⟨later, logsLater, keys⟩ := (logs.lower genuine).serveAll between betweenGenuine
  have notLater : ∀ one ∈ later, other.same one.1 = false := by
    intro one member
    have requests := List.mem_map_of_mem (f := Prod.fst) member
    rw [keys] at requests
    exact apart _ (CacheCall.mem_requested_of_sinceReset requests)
  rw [lower_fst, answer]
  by_cases steady : ∀ call ∈ between, call.isReset = false
  · rw [if_neg (by simpa using steady)] at logsLater
    rw [logsLater.tracks.request_again otherGenuine (KernelKey.partialEquivalence objects) rfl same
      notLater, keys, CacheCall.requestedSinceReset_of_steady steady, logsLater.capacity]
    split_ifs with room
    · exact iff_of_true rfl ⟨steady, room⟩
    · exact iff_of_false (Nat.ne_of_gt (given.trans_le kept)) fun ⟨_, few⟩ => room few
  · rw [if_pos (by simpa using steady), List.append_nil] at logsLater
    rw [logsLater.tracks.request_first otherGenuine notLater]
    exact iff_of_false (Nat.ne_of_gt (given.trans_le kept)) fun ⟨unbroken, _⟩ => steady unbroken

/-- The figures of the cache are about the requests since the last reset. -/
theorem figures_eq (logs : Logs objects log cache) (reset : Bool) :
    (cache.stats reset).1.hits + (cache.stats reset).1.misses = log.length ∧
      (cache.stats reset).1.size =
        min kernelCapacity ((log.map Prod.fst).eraseDupsBy KernelKey.same).length :=
  ⟨logs.tracks.counts, logs.capacity ▸ logs.tracks.size_eq⟩

end Logs

end KernelCache

/-! ## Sessions with the cache -/

/-- The formulas of a session have genuine constants. -/
theorem Chronicle.genuine {objects : Nat → Number} {requests : List Request} {formula : Formula}
    (made : formula ∈ (chronicle objects requests).formulas) : formula.Genuine objects := by
  have holds : (chronicle objects requests).Holds fun formula _ => formula.Genuine objects ∧ True :=
    holds_of_edit (fun functions => ⟨Formula.genuine_new functions, trivial⟩)
      (fun _ _ edit genuine => ⟨genuine.1.edit edit, trivial⟩) requests
  exact ((List.forall₂_and_left _ _).mp holds).1 formula made

/-- The formulas of the calls are made by a host, of objects that have a value for good. -/
def CacheCall.Hosted (objects : Nat → Number) (calls : List CacheCall) : Prop :=
  ∀ formula domain, .lower formula domain ∈ calls →
    ∃ requests, formula ∈ (chronicle objects requests).formulas

theorem CacheCall.Hosted.genuine {objects : Nat → Number} {calls : List CacheCall}
    (hosted : Hosted objects calls) :
    ∀ call ∈ calls, ∀ key ∈ call.key?, key.Genuine objects := by
  intro call member key requests
  cases call with
  | lower formula domain =>
      obtain ⟨_, made⟩ := hosted formula domain member
      exact Formula.genuine_kernelKey (Chronicle.genuine made) (key?_lower_eq_some.mp requests)
  | stats => cases requests

namespace KernelCache

variable {objects : Nat → Number} {calls : List CacheCall}

/-- A session has a log of the keys that were requested since the last reset. -/
theorem exists_logs (genuine : ∀ call ∈ calls, ∀ key ∈ call.key?, key.Genuine objects) :
    ∃ log, Logs objects log (serveAll {} calls) ∧ log.map Prod.fst = requestedSinceReset calls := by
  obtain ⟨log, logs, keys⟩ := Logs.start.serveAll calls genuine
  rw [ite_self, List.append_nil] at logs
  exact ⟨log, logs, keys⟩

/-- The reply to a formula that cannot be used leaves the cache as it is. -/
theorem serve_of_unusable {formula : Formula} {failure : StateError}
    (unusable : formula.usable = .error failure) (domain : Domain) (cache : KernelCache) :
    cache.serve (.lower formula domain) = (.refused failure, cache) := by
  simp only [serve, Formula.lower, Formula.kernelKey, unusable, bind, Except.bind]

/-- In every session of calls, a kernel is given again for an equal key if and only if no reset and
fewer than 64 distinct other keys came in between. The figures count the requests since the last
reset and the distinct keys among them, up to 64, also where a reset is asked for with them. A
formula that cannot be used is refused and leaves the cache as it is. -/
theorem reply_of_calls (objects : Nat → Number) (calls : List CacheCall)
    (hosted : CacheCall.Hosted objects calls) :
    (∀ earlier first between second later key other,
      calls = earlier ++ first :: (between ++ second :: later) →
      first.key? = some key → second.key? = some other → other.same key = true →
      (∀ one ∈ requested between, other.same one = false) →
      ∃ number again,
        reply earlier first = .kernel number ∧
        reply (earlier ++ first :: between) second = .kernel again ∧
        (again = number ↔
          (∀ call ∈ between, call.isReset = false) ∧
            ((requested between).eraseDupsBy KernelKey.same).length < 64)) ∧
    (∀ reset, ∃ figures,
      reply calls (.stats reset) = .figures figures ∧
      figures.hits + figures.misses = (requestedSinceReset calls).length ∧
      figures.size = min 64 ((requestedSinceReset calls).eraseDupsBy KernelKey.same).length ∧
      figures.capacity = 64) ∧
    ∀ formula domain failure, formula.usable = .error failure →
      reply calls (.lower formula domain) = .refused failure ∧
        serveAll {} (calls ++ [.lower formula domain]) = serveAll {} calls := by
  have genuine := hosted.genuine
  refine ⟨?_, fun reset => ?_, fun formula domain failure unusable => ?_⟩
  · rintro earlier first between second later key other rfl firstKey secondKey same apart
    simp only [List.forall_mem_append, List.forall_mem_cons] at genuine
    obtain ⟨earlierGenuine, firstGenuine, betweenGenuine, secondGenuine, -⟩ := genuine
    obtain ⟨log, logs, -⟩ := exists_logs earlierGenuine
    have next : serveAll {} (earlier ++ first :: between) =
        ((serveAll {} earlier).lower key).2.serveAll between := by
      rw [serveAll_append, serveAll, List.foldl_cons, serve_of_key? firstKey, ← serveAll]
    refine ⟨_, _, congrArg Prod.fst (serve_of_key? firstKey),
      congrArg Prod.fst (serve_of_key? secondKey), ?_⟩
    rw [next]
    exact logs.lower_again_iff (firstGenuine key firstKey) (secondGenuine other secondKey)
      betweenGenuine same apart
  · obtain ⟨log, logs, keys⟩ := exists_logs genuine
    obtain ⟨counted, size⟩ := logs.figures_eq reset
    refine ⟨((serveAll {} calls).stats reset).1, rfl, counted.trans ?_, size.trans ?_, rfl⟩
    · rw [← keys, List.length_map]
    · rw [keys]
      rfl
  · have refused := serve_of_unusable unusable domain (serveAll {} calls)
    refine ⟨congrArg Prod.fst refused, ?_⟩
    rw [serveAll_append]
    exact congrArg Prod.snd refused

/-- A new formula that pushes the whole number two or the double two. -/
def pushingTwo (object : Nat) : Formula :=
  (Formula.edit twos { scope := { symbols := { constants := defaultConstants }, functions := [] } }
    (.appendConstant object)).1

/-- Both formulas are lowered, with other requests in between, and once more after a reset. -/
def callsForTwos : List CacheCall :=
  [.lower (pushingTwo 0) .real, .lower (pushingTwo 0) .complex, .lower (pushingTwo 1) .real,
    .stats true, .lower (pushingTwo 0) .real]

/-- The formula of the double two is given the kernel of that of the whole number two, but after a
reset there is another one. -/
theorem reply_of_callsForTwos :
    ∃ number other figures,
      reply [] (.lower (pushingTwo 0) .real) = .kernel number ∧
      reply (callsForTwos.take 2) (.lower (pushingTwo 1) .real) = .kernel number ∧
      reply (callsForTwos.take 4) (.lower (pushingTwo 0) .real) = .kernel other ∧
      other ≠ number ∧
      reply callsForTwos (.stats true) = .figures figures ∧ figures.hits + figures.misses = 1 := by
  have made : (chronicle twos pairOfConstants).formulas = [pushingTwo 0, pushingTwo 1] := rfl
  have hosted : CacheCall.Hosted twos callsForTwos := by
    intro formula domain member
    refine ⟨pairOfConstants, ?_⟩
    simp only [callsForTwos, List.mem_cons, CacheCall.lower.injEq, reduceCtorEq, List.not_mem_nil,
      or_false, false_or] at member
    rw [made]
    rcases member with ⟨rfl, _⟩ | ⟨rfl, _⟩ | ⟨rfl, _⟩ | ⟨rfl, _⟩ <;> simp
  obtain ⟨again, counts, -⟩ := reply_of_calls twos callsForTwos hosted
  obtain ⟨number, same, first, second, same_iff⟩ :=
    again [] _ [.lower (pushingTwo 0) .complex] _ _ _ _ rfl rfl rfl (by decide) (by decide)
  obtain ⟨before, other, third, fourth, other_iff⟩ :=
    again (callsForTwos.take 2) _ [.stats true] _ [] _ _ rfl rfl rfl (by decide) (by decide)
  obtain rfl : same = number := same_iff.mpr (by decide)
  obtain rfl : same = before := CacheReply.kernel.inj (second.symm.trans third)
  obtain ⟨figures, told, sum, -⟩ := counts true
  exact ⟨same, other, figures, first, second, fourth, fun equal => absurd (other_iff.mp equal)
    (by decide), told, sum⟩

end KernelCache

end Formulary
