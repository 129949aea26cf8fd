import Formulary.Kernel.Cache
import Mathlib.Data.List.Forall2

/-!
# Maps of recent keys

A map that keeps the entries requested most recently is described by the requests that were made of
it, the latest first. Of the requests for one key only the latest counts, and the map holds as many
of these as it has room for: `Tracks` says so, and every request keeps it.

`Tracks.request_again` is what follows for reuse. A key is found again as long as fewer other keys
than the capacity were requested since. What counts as the same key is any relation that is
symmetric and transitive on the keys that are requested. It need not be reflexive; a key that is not
the same as itself is never found.
-/

namespace Formulary

/-! ## Distinct entries -/

section Distinct

variable {α β : Type} (same : α → α → Bool)

/-- Distinct entries are found by taking the first one and leaving out what is the same. -/
theorem eraseDupsBy_induction {motive : List α → Prop} (nil : motive [])
    (cons : ∀ first rest, motive (rest.filter fun other => decide (same other first = false)) →
      motive (first :: rest)) : ∀ entries, motive entries
  | [] => nil
  | first :: rest => cons first rest (eraseDupsBy_induction nil cons _)
termination_by entries => entries.length
decreasing_by exact Nat.lt_succ_of_le (List.length_filter_le _ _)

theorem eraseDupsBy_sublist (entries : List α) : (entries.eraseDupsBy same).Sublist entries := by
  induction entries using eraseDupsBy_induction same with
  | nil => exact .slnil
  | cons first rest inductionHypothesis =>
      rw [List.eraseDupsBy_cons]
      exact (inductionHypothesis.trans List.filter_sublist).cons_cons first

/-- No entry is the same as one before it. -/
theorem pairwise_eraseDupsBy (entries : List α) :
    (entries.eraseDupsBy same).Pairwise fun before behind => same behind before = false := by
  induction entries using eraseDupsBy_induction same with
  | nil => exact .nil
  | cons first rest inductionHypothesis =>
      rw [List.eraseDupsBy_cons]
      refine .cons (fun other member => ?_) inductionHypothesis
      have kept := (eraseDupsBy_sublist same _).subset member
      exact of_decide_eq_true (List.mem_filter.mp kept).2

/-- What is distinct under a view is the view of what is distinct. -/
theorem map_eraseDupsBy (view : β → α) (entries : List β) :
    (entries.eraseDupsBy fun left right => same (view left) (view right)).map view =
      (entries.map view).eraseDupsBy same := by
  induction entries using eraseDupsBy_induction fun left right => same (view left) (view right) with
  | nil => rfl
  | cons first rest inductionHypothesis =>
      simp only [List.eraseDupsBy_cons, List.map_cons, inductionHypothesis, List.filter_map]
      rfl

/-- A condition that what is the same shares can be checked before or after. -/
theorem eraseDupsBy_filter {keep : α → Bool} (entries : List α)
    (shared : ∀ before ∈ entries, ∀ behind ∈ entries, same behind before = true →
      keep behind = true → keep before = true) :
    (entries.filter keep).eraseDupsBy same = (entries.eraseDupsBy same).filter keep := by
  induction entries using eraseDupsBy_induction same with
  | nil => rfl
  | cons first rest inductionHypothesis =>
      have behind := inductionHypothesis fun before inside other later =>
        shared before (.tail _ (List.mem_of_mem_filter inside)) other
          (.tail _ (List.mem_of_mem_filter later))
      rw [List.eraseDupsBy_cons, List.filter_cons, List.filter_cons, ← behind, List.filter_filter]
      split
      case isTrue =>
          simp only [List.eraseDupsBy_cons, List.filter_filter, Bool.and_comm]
      case isFalse dropped =>
          -- What is the same as a dropped entry is dropped anyway.
          refine congrArg _ (List.filter_congr fun other member => ?_)
          cases kept : keep other with
          | false => rfl
          | true =>
              rw [Bool.true_and, eq_comm, decide_eq_true_iff, Bool.eq_false_iff]
              exact fun equal => dropped
                (shared first (.head _) other (.tail _ member) equal kept)

/-- An entry that is not the same as one before it stands behind the distinct ones of these. -/
theorem eraseDupsBy_append_cons {front : List α} {entry : α} (back : List α)
    (other : ∀ one ∈ front, same entry one = false) :
    ∃ rest, (front ++ entry :: back).eraseDupsBy same =
      front.eraseDupsBy same ++ entry :: rest := by
  induction front using eraseDupsBy_induction same generalizing back with
  | nil =>
      rw [List.nil_append, List.eraseDupsBy_cons]
      exact ⟨_, rfl⟩
  | cons first between inductionHypothesis =>
      obtain ⟨rest, ordered⟩ := inductionHypothesis
        (back.filter fun one => decide (same one first = false))
        fun one member => other one (.tail _ (List.mem_of_mem_filter member))
      have kept : decide (same entry first = false) = true :=
        decide_eq_true (other first (.head _))
      refine ⟨rest, ?_⟩
      rw [List.cons_append, List.eraseDupsBy_cons, List.eraseDupsBy_cons, List.filter_append,
        List.filter_cons, if_pos kept, ordered]
      rfl

end Distinct

/-- The first entries that meet a condition are among one more of the entries, if at most one of
these fails it. -/
theorem take_filter_eq {α : Type} {keep : α → Bool} {entries : List α} {count : Nat}
    (enough : (entries.take (count + 1)).length ≤
      ((entries.take (count + 1)).filter keep).length + 1) :
    (entries.filter keep).take count = ((entries.take (count + 1)).filter keep).take count := by
  conv_lhs => rw [← List.take_append_drop (count + 1) entries, List.filter_append]
  rcases Nat.lt_or_ge (count + 1) entries.length with long | short
  · rw [List.length_take, Nat.min_eq_left (Nat.le_of_lt long)] at enough
    exact List.take_append_of_le_length (Nat.le_of_succ_le_succ enough)
  · rw [List.drop_of_length_le short, List.filter_nil, List.append_nil]

/-- The first entry that is sought is found among as many entries as stand before it and one
more. -/
theorem find?_take_append_cons {α : Type} {sought : α → Bool} {front : List α} {entry : α}
    (other : ∀ one ∈ front, sought one = false) (meets : sought entry = true) (back : List α)
    (count : Nat) :
    ((front ++ entry :: back).take count).find? sought =
      if front.length < count then some entry else none := by
  have absent : front.find? sought = none := by
    rw [List.find?_eq_none]
    intro one member
    rw [other one member]
    exact Bool.false_ne_true
  split_ifs with room
  · obtain ⟨spare, rfl⟩ := Nat.exists_eq_add_of_lt room
    rw [Nat.add_assoc, List.take_length_add_append, List.take_succ_cons, List.find?_append, absent,
      List.find?_cons_of_pos meets]
    rfl
  · rw [List.take_append_of_le_length (Nat.le_of_not_lt room), List.find?_eq_none]
    intro one member
    rw [other one (List.mem_of_mem_take member)]
    exact Bool.false_ne_true

/-! ## Keys that are the same -/

/-- Being the same is symmetric and transitive on known keys. -/
structure PartialEquivalence {κ : Type} (same : κ → κ → Bool) (known : κ → Prop) : Prop where
  symm : ∀ {left right : κ}, known left → known right →
    same left right = true → same right left = true
  trans : ∀ {left middle right : κ}, known left → known middle → known right →
    same left middle = true → same middle right = true → same left right = true

namespace PartialEquivalence

variable {κ : Type} {same : κ → κ → Bool} {known : κ → Prop} {left right other : κ}
  (equivalence : PartialEquivalence same known) (leftKnown : known left) (rightKnown : known right)

include equivalence leftKnown rightKnown

theorem comm : same left right = same right left :=
  Bool.eq_iff_iff.mpr
    ⟨equivalence.symm leftKnown rightKnown, equivalence.symm rightKnown leftKnown⟩

/-- Keys that are the same are the same as the same keys. -/
theorem congr (otherKnown : known other) (equal : same left right = true) :
    same other left = same other right := by
  rw [Bool.eq_iff_iff]
  constructor
  · intro first
    exact equivalence.trans otherKnown leftKnown rightKnown first equal
  · intro second
    exact equivalence.trans otherKnown rightKnown leftKnown second
      (equivalence.symm leftKnown rightKnown equal)

end PartialEquivalence

namespace RecentMap

variable {κ ν : Type} {same : κ → κ → Bool} {known : κ → Prop}

/-! ## What a map holds -/

/-- The latest of the requests for each key, with the value that it was given. -/
def latest (same : κ → κ → Bool) (log : List (κ × ν)) : List (κ × ν) :=
  log.eraseDupsBy fun before behind => same before.1 behind.1

/-- An entry holds the value that a request was given, under a key that cannot be told from the one
that was requested. -/
structure Holds (same : κ → κ → Bool) (known : κ → Prop) (request entry : κ × ν) : Prop where
  value_eq : entry.2 = request.2
  key_eq : ∀ other, known other → same other entry.1 = same other request.1

section Extract

variable {requests entries others : List (κ × ν)} {found : κ × ν} {key : κ}
  (held : List.Forall₂ (Holds same known) requests entries) (keyKnown : known key)

include held keyKnown

/-- Where no entry is found under a key, no request was made for it. -/
theorem other_of_extract_eq_none (missing : extract (same key) entries = none) :
    ∀ request ∈ requests, same key request.1 = false := by
  induction held with
  | nil => exact nofun
  | @cons request entry _ _ holds _ inductionHypothesis =>
      simp only [extract] at missing
      split at missing
      case isTrue => cases missing
      case isFalse differs =>
          intro one member
          rcases List.mem_cons.mp member with rfl | later
          · rw [← holds.key_eq key keyKnown]
            exact Bool.eq_false_iff.mpr differs
          · exact inductionHypothesis (Option.map_eq_none_iff.mp missing) one later

/-- What is found under a key holds the first request for it, and the other entries the others. -/
theorem exists_of_extract_eq_some (extracted : extract (same key) entries = some (found, others)) :
    ∃ front request back, requests = front ++ request :: back ∧
      (∀ one ∈ front, same key one.1 = false) ∧ same key request.1 = true ∧
      Holds same known request found ∧ List.Forall₂ (Holds same known) (front ++ back) others := by
  induction held generalizing others with
  | nil => cases extracted
  | @cons request entry back _ holds behind inductionHypothesis =>
      simp only [extract] at extracted
      split at extracted
      case isTrue meets =>
          cases extracted
          rw [holds.key_eq key keyKnown] at meets
          exact ⟨[], request, back, rfl, nofun, meets, holds, behind⟩
      case isFalse differs =>
          obtain ⟨⟨other, rest⟩, later, same⟩ := Option.map_eq_some_iff.mp extracted
          cases same
          obtain ⟨front, first, remaining, rfl, before, meets, firstHolds, restHeld⟩ :=
            inductionHypothesis later
          refine ⟨request :: front, first, remaining, rfl, ?_, meets, firstHolds,
            .cons holds restHeld⟩
          intro one member
          rcases List.mem_cons.mp member with rfl | inside
          · rw [← holds.key_eq key keyKnown]
            exact Bool.eq_false_iff.mpr differs
          · exact before one inside

end Extract

/-- A map holds the latest requests for distinct keys, as many as it has room for, and counted all
requests. The log has the latest request first. -/
structure Tracks (same : κ → κ → Bool) (known : κ → Prop) (log : List (κ × ν))
    (map : RecentMap κ ν) : Prop where
  requested : ∀ request ∈ log, known request.1
  entries : List.Forall₂ (Holds same known) ((latest same log).take map.capacity) map.entries
  counts : map.hits + map.misses = log.length

/-- A map in which nothing was requested. -/
theorem tracks_empty (capacity : Nat) :
    Tracks same known [] ({ capacity } : RecentMap κ ν) where
  requested := nofun
  entries := by
    rw [show latest same ([] : List (κ × ν)) = [] from rfl, List.take_nil]
    exact .nil
  counts := rfl

section Requests

theorem request_of_extract_eq_none {map : RecentMap κ ν} {key : κ} {make : Unit → ν}
    (missing : extract (same key) map.entries = none) :
    map.request same key make =
      (make (),
        { map with entries := ((key, make ()) :: map.entries).take map.capacity
                   misses := map.misses + 1 }) := by
  rw [request, missing]

theorem request_of_extract_eq_some {map : RecentMap κ ν} {key : κ} {make : Unit → ν}
    {found : κ × ν} {others : List (κ × ν)}
    (extracted : extract (same key) map.entries = some (found, others)) :
    map.request same key make =
      (found.2, { map with entries := found :: others, hits := map.hits + 1 }) := by
  rw [request, extracted]

/-- Requests do not change how much room there is. -/
theorem capacity_request (map : RecentMap κ ν) (key : κ) (make : Unit → ν) :
    (map.request same key make).2.capacity = map.capacity := by
  unfold request
  split <;> rfl

variable {log : List (κ × ν)} {map : RecentMap κ ν} {key : κ} {value : ν} {make : Unit → ν}

/-- A map has as many entries as distinct keys were requested, up to its capacity. -/
theorem Tracks.size_eq (tracks : Tracks same known log map) :
    map.size = min map.capacity ((log.map Prod.fst).eraseDupsBy same).length := by
  have lengths := tracks.entries.length_eq
  rw [List.length_take] at lengths
  rw [size, ← lengths, latest, ← map_eraseDupsBy same Prod.fst log, List.length_map]

theorem mem_of_mem_latest {request : κ × ν} (member : request ∈ latest same log) :
    request ∈ log :=
  (eraseDupsBy_sublist _ log).subset member

variable (equivalence : PartialEquivalence same known)

include equivalence

/-- A request takes the place of what was requested under the same key. -/
theorem latest_cons (requested : ∀ request ∈ log, known request.1) (keyKnown : known key) :
    latest same ((key, value) :: log) =
      (key, value) :: (latest same log).filter fun request => !same key request.1 := by
  have order : ∀ request ∈ log,
      decide (same request.1 key = false) = !same key request.1 := by
    intro request member
    rw [equivalence.comm keyKnown (requested request member)]
    cases same request.1 key <;> rfl
  rw [latest, List.eraseDupsBy_cons, List.filter_congr order, eraseDupsBy_filter]
  · rfl
  · intro before inside behind later equal kept
    rw [equivalence.congr (requested behind later) (requested before inside) keyKnown equal] at kept
    exact kept

variable (tracks : Tracks same known log map) (keyKnown : known key)

include tracks keyKnown

/-- Among the requests for distinct keys at most one is for a given key. -/
theorem Tracks.other_of_mem {front back : List (κ × ν)} {request : κ × ν} {count : Nat}
    (split : (latest same log).take count = front ++ request :: back)
    (meets : same key request.1 = true) : ∀ one ∈ back, same key one.1 = false := by
  intro one member
  have inside : ∀ other ∈ front ++ request :: back, known other.1 := by
    intro other stands
    rw [← split] at stands
    exact tracks.requested other (mem_of_mem_latest (List.mem_of_mem_take stands))
  have apart := (pairwise_eraseDupsBy _ log).sublist (List.take_sublist count (latest same log))
  rw [split] at apart
  have differs := (List.pairwise_cons.mp (List.pairwise_append.mp apart).2.1).1 one member
  have requestKnown := inside request (by simp)
  have oneKnown := inside one (by simp [member])
  rw [Bool.eq_false_iff]
  intro again
  refine Bool.eq_false_iff.mp differs ?_
  exact equivalence.trans oneKnown keyKnown requestKnown
    (equivalence.symm keyKnown oneKnown again) meets

/-- A new entry is put before the others, which stay but for one that there is no room for. -/
theorem Tracks.entries_of_miss (room : 0 < map.capacity)
    (missing : extract (same key) map.entries = none) :
    List.Forall₂ (Holds same known) ((latest same ((key, value) :: log)).take map.capacity)
      (((key, value) :: map.entries).take map.capacity) := by
  obtain ⟨count, capacity⟩ := Nat.exists_eq_add_one.mpr room
  have held := tracks.entries
  have other := other_of_extract_eq_none held keyKnown missing
  rw [capacity] at held other ⊢
  have kept : ((latest same log).take (count + 1)).filter (fun request => !same key request.1) =
      (latest same log).take (count + 1) := by
    refine List.filter_eq_self.mpr fun one member => ?_
    rw [other one member]
    rfl
  rw [latest_cons equivalence tracks.requested keyKnown, List.take_succ_cons,
    List.take_succ_cons, take_filter_eq (by rw [kept]; exact Nat.le_succ _), kept]
  exact .cons ⟨rfl, fun _ _ => rfl⟩ (List.forall₂_take count held)

/-- An entry that is found is moved before the others, and all of them stay. -/
theorem Tracks.entries_of_hit (room : 0 < map.capacity) {found : κ × ν} {others : List (κ × ν)}
    (extracted : extract (same key) map.entries = some (found, others)) :
    List.Forall₂ (Holds same known) ((latest same ((key, found.2) :: log)).take map.capacity)
      (found :: others) := by
  obtain ⟨count, capacity⟩ := Nat.exists_eq_add_one.mpr room
  obtain ⟨front, first, back, split, before, meets, holds, rest⟩ :=
    exists_of_extract_eq_some tracks.entries keyKnown extracted
  have behind := tracks.other_of_mem equivalence keyKnown split meets
  rw [capacity] at split ⊢
  have kept : ((latest same log).take (count + 1)).filter (fun request => !same key request.1) =
      front ++ back := by
    have dropped : ¬(!same key first.1) = true := by rw [meets]; decide
    rw [split, List.filter_append, List.filter_cons, if_neg dropped, ← List.filter_append]
    refine List.filter_eq_self.mpr fun one member => ?_
    rcases List.mem_append.mp member with inFront | inBack
    · rw [before one inFront]; rfl
    · rw [behind one inBack]; rfl
  have lengths := congrArg List.length split
  have most := List.length_take_le (count + 1) (latest same log)
  simp only [List.length_append, List.length_cons] at lengths
  have fits : (front ++ back).length ≤ count := by rw [List.length_append]; omega
  rw [latest_cons equivalence tracks.requested keyKnown, List.take_succ_cons,
    take_filter_eq (by rw [kept, List.length_append]; omega), kept,
    List.take_of_length_le fits]
  refine .cons ⟨rfl, fun one oneKnown => ?_⟩ rest
  have member : first ∈ latest same log :=
    List.mem_of_mem_take (split ▸ List.mem_append_right _ (.head _))
  rw [holds.key_eq one oneKnown]
  exact (equivalence.congr keyKnown (tracks.requested first (mem_of_mem_latest member))
    oneKnown meets).symm

/-- Every request keeps a map tracked. -/
theorem Tracks.request (room : 0 < map.capacity) :
    Tracks same known ((key, (map.request same key make).1) :: log)
      (map.request same key make).2 := by
  have counts := tracks.counts
  have requested : ∀ {value}, ∀ request ∈ (key, value) :: log, known request.1 := by
    intro value request member
    rcases List.mem_cons.mp member with rfl | before
    · exact keyKnown
    · exact tracks.requested request before
  cases extracted : extract (same key) map.entries with
  | none =>
      rw [request_of_extract_eq_none extracted]
      exact ⟨requested, tracks.entries_of_miss equivalence keyKnown room extracted,
        by simp only [List.length_cons]; omega⟩
  | some moved =>
      rw [request_of_extract_eq_some extracted]
      exact ⟨requested, tracks.entries_of_hit equivalence keyKnown room extracted,
        by simp only [List.length_cons]; omega⟩

end Requests

/-! ## What is found again -/

section Again

variable {log : List (κ × ν)} {map : RecentMap κ ν} {key : κ} {make : Unit → ν}
  (tracks : Tracks same known log map) (keyKnown : known key)

include tracks keyKnown

/-- A request is answered by what the latest requests for distinct keys were given. -/
theorem Tracks.request_eq :
    (map.request same key make).1 =
      match ((latest same log).take map.capacity).find? fun request => same key request.1 with
      | some request => request.2
      | none => make () := by
  cases extracted : extract (same key) map.entries with
  | none =>
      have other := other_of_extract_eq_none tracks.entries keyKnown extracted
      rw [request_of_extract_eq_none extracted, List.find?_eq_none.mpr]
      simpa using other
  | some moved =>
      obtain ⟨found, others⟩ := moved
      obtain ⟨front, first, back, split, before, meets, holds, -⟩ :=
        exists_of_extract_eq_some tracks.entries keyKnown extracted
      have sought : ((latest same log).take map.capacity).find?
          (fun request => same key request.1) = some first :=
        List.find?_eq_some_iff_append.mpr ⟨meets, front, back, split, by simpa using before⟩
      rw [request_of_extract_eq_some extracted, sought]
      exact holds.value_eq

/-- A key is given what it was given before, or a new value. -/
theorem Tracks.request_cases (make : Unit → ν) :
    (∃ request ∈ log, (map.request same key make).1 = request.2) ∨
      (map.request same key make).1 = make () := by
  rw [tracks.request_eq keyKnown]
  split
  case h_1 request found =>
      have recent := List.mem_of_mem_take (List.mem_of_find?_eq_some found)
      exact .inl ⟨request, mem_of_mem_latest recent, rfl⟩
  case h_2 => exact .inr rfl

/-- A key that was not requested is given a new value. -/
theorem Tracks.request_first (other : ∀ request ∈ log, same key request.1 = false) :
    (map.request same key make).1 = make () := by
  rw [tracks.request_eq keyKnown, List.find?_eq_none.mpr]
  intro request member
  rw [other request (mem_of_mem_latest (List.mem_of_mem_take member))]
  exact Bool.false_ne_true

/-- A key that was requested is given the same value again, if fewer distinct keys than the capacity
were requested since. Otherwise it is given a new value. -/
theorem Tracks.request_again (equivalence : PartialEquivalence same known)
    {later earlier : List (κ × ν)} {first : κ × ν}
    (split : log = later ++ first :: earlier) (meets : same key first.1 = true)
    (other : ∀ one ∈ later, same key one.1 = false) :
    (map.request same key make).1 =
      if ((later.map Prod.fst).eraseDupsBy same).length < map.capacity then first.2
      else make () := by
  have requested : ∀ one ∈ later ++ first :: earlier, known one.1 := split ▸ tracks.requested
  have firstKnown := requested first (by simp)
  have notFirst : ∀ one ∈ later, same first.1 one.1 = false := by
    intro one member
    have oneKnown := requested one (List.mem_append_left _ member)
    have equal := equivalence.symm keyKnown firstKnown meets
    rw [equivalence.comm firstKnown oneKnown, equivalence.congr firstKnown keyKnown oneKnown equal,
      equivalence.comm oneKnown keyKnown]
    exact other one member
  obtain ⟨rest, ordered⟩ : ∃ rest, latest same log = latest same later ++ first :: rest := by
    rw [split]
    exact eraseDupsBy_append_cons _ earlier notFirst
  have notKey : ∀ one ∈ latest same later, (fun one => same key one.1) one = false :=
    fun one member => other one (mem_of_mem_latest member)
  have sought := find?_take_append_cons notKey meets rest map.capacity
  rw [tracks.request_eq keyKnown, ordered, sought, ← map_eraseDupsBy, List.length_map]
  change _ = if (latest same later).length < map.capacity then first.2 else make ()
  split_ifs <;> rfl

end Again

end RecentMap

end Formulary
