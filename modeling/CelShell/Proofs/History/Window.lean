import Mathlib.Algebra.Group.Nat.Defs
import Mathlib.Data.List.Basic
import Mathlib.Order.Bounds.Basic
import CelShell.Proofs.History.Ring

/-!
# A ring is the window of a log

What each way of looking into a ring shows once a whole log was put into it. `Ring.Holds` says it of
slots; here it is said of the look-ups. Numbers from the last `capacity` ones give their entries,
a slot gives the newest entry that came to it, and the entries in order are the end of the log.
Nothing that is divided by, indexed or counted on the way gets out of range (`Ring.InRange`), for
as long as the number of entries is a word.
-/

namespace CelShell.Ring

variable {α : Type} {r : Ring α} {log : List α}

/-- More entries, one after the other. -/
def insertAll (r : Ring α) (log : List α) : Ring α := log.foldl insert r

/-- What is divided by, indexed and counted is in range: an operation on the ring neither misses a
slot nor leaves the words. -/
structure InRange (r : Ring α) : Prop where
  /-- No number of an entry is divided by zero. -/
  capacity_ne_zero : r.capacity ≠ 0
  /-- Every number has a slot. -/
  slotOf_lt : ∀ n, r.slotOf n < r.capacity
  /-- The next entry goes to the first slot that is free, or else to one that is filled. -/
  insert_slot : r.slotOf r.position = r.slots.size ∨ r.slotOf r.position < r.slots.size
  /-- The slot of an entry that is still there is filled. -/
  live_slot : ∀ n < r.position, r.position ≤ n + r.capacity → r.slotOf n < r.slots.size
  /-- The oldest entry that is still there has a number. -/
  length_le : r.length ≤ r.position
  /-- The number of entries is a word. -/
  position_lt : r.position < 2 ^ 64

/-- Putting entries in does not change how many are kept. -/
theorem capacity_insertAll (r : Ring α) (log : List α) :
    (r.insertAll log).capacity = r.capacity := by
  induction log generalizing r with
  | nil => rfl
  | cons a log ih => exact ih (r.insert a)

/-- The entries that were put in come after those of before. -/
theorem Holds.insertAll {before : List α} (h : r.Holds before) (log : List α) :
    (r.insertAll log).Holds (before ++ log) := by
  induction log generalizing r before with
  | nil => rwa [List.append_nil]
  | cons a log ih =>
    rw [← List.singleton_append, ← List.append_assoc]
    exact ih (h.insert a)

/-! ## Looking up by number -/

/-- An entry that is followed by fewer than `capacity` others is found by its number. -/
theorem Holds.getAbsolute?_of_window (h : r.Holds log) {k : Nat} (hk : k < log.length)
    (hwindow : log.length ≤ k + r.capacity) : r.getAbsolute? k = some log[k] := by
  rw [h.getAbsolute?_eq, if_pos (by omega), Int.toNat_natCast, List.getElem?_eq_getElem hk]

/-- No other number gives anything. -/
theorem Holds.getAbsolute?_of_not_window (h : r.Holds log) {i : Int}
    (hi : ¬(max 0 ((log.length : Int) - r.capacity) ≤ i ∧ i < log.length)) :
    r.getAbsolute? i = none := by
  rw [h.getAbsolute?_eq, if_neg (by omega)]

/-- A new entry has the next number, and the one that is `capacity` before it is gone. All others
stay where they are. -/
theorem getAbsolute?_insert (r : Ring α) (a : α) (n : Int) :
    (r.insert a).getAbsolute? n =
      if n = r.position then some a
      else if n = r.position - r.capacity then none
      else r.getAbsolute? n := by
  have hpos := r.capacity_pos
  have hposition : (r.insert a).position = r.position + 1 := rfl
  have hcapacity : (r.insert a).capacity = r.capacity := rfl
  have hslotOf : (r.insert a).slotOf = r.slotOf := rfl
  unfold getAbsolute?
  rw [hposition, hcapacity, hslotOf]
  split_ifs with hrange hnew hgone hold hnew hgone hold
  · subst hnew
    rw [Int.toNat_natCast, r.insert_slots_self]
  · omega
  · -- The entry is still there, so its slot is not the one that is taken.
    exact r.insert_slots_of_ne a (r.slotOf_ne (by omega) (by omega))
  all_goals first | rfl | omega

/-! ## Looking up by slot -/

/-- A slot gives the newest of the entries whose numbers have it. -/
theorem Holds.get?_of_isGreatest (h : r.Holds log) {j k : Nat}
    (hk : IsGreatest {k | k < log.length ∧ r.slotOf k = j} k) : r.get? j = log[k]? := by
  obtain ⟨⟨hlt, rfl⟩, hgreatest⟩ := hk
  -- The next number with the same slot is greater, so it is not yet the number of an entry.
  have hwindow : log.length ≤ k + r.capacity := by
    by_contra hnot
    have hnext : k + r.capacity ∈ {n | n < log.length ∧ r.slotOf n = r.slotOf k} :=
      ⟨Nat.not_le.1 hnot, Nat.add_mod_right k r.capacity⟩
    have hle : k + r.capacity ≤ k := hgreatest hnext
    have hpos := r.capacity_pos
    omega
  unfold get?
  rw [if_pos (Int.natCast_nonneg _), Int.toNat_natCast]
  exact h.slot_eq k hlt hwindow

/-- A slot that no entry came to is empty. -/
theorem Holds.get?_of_forall_ne (h : r.Holds log) {j : Nat} (hj : j < r.capacity)
    (hnone : ∀ k < log.length, r.slotOf k ≠ j) : r.get? j = none := by
  -- The entry whose number is that of the slot would have come to it.
  have hle : log.length ≤ j := by
    by_contra hlt
    exact hnone j (Nat.not_le.1 hlt) (r.slotOf_of_lt hj)
  have hsize := r.size_slots
  have hpos := h.position_eq
  unfold get?
  rw [if_pos (Int.natCast_nonneg _), Int.toNat_natCast, Array.getElem?_eq_none (by omega)]

/-- There are no slots but those from zero up to the capacity. -/
theorem get?_of_not_slot (r : Ring α) {j : Int} (hj : j < 0 ∨ r.capacity ≤ j) :
    r.get? j = none := by
  have hsize := r.size_slots
  unfold get?
  by_cases hneg : j < 0
  · rw [if_neg (by omega)]
  · rw [if_pos (by omega), Array.getElem?_eq_none (by omega)]

/-! ## The entries in order -/

/-- The entries from a number on, looked up one by one, are what is left of the log there. -/
theorem filterMap_range'_eq_drop (log : List α) {start count : Nat}
    (h : start + count = log.length) :
    (List.range' start count).filterMap (fun n => log[n]?) = log.drop start := by
  induction count generalizing start with
  | zero => rw [List.range'_zero, List.filterMap_nil, List.drop_of_length_le (by omega)]
  | succ count ih =>
    have hlt : start < log.length := by omega
    rw [List.range'_succ, List.filterMap_cons, List.getElem?_eq_getElem hlt,
      List.drop_eq_getElem_cons hlt, ih (by omega)]

/-- A ring holds as many entries as were recorded, up to its capacity. -/
theorem Holds.length_eq (h : r.Holds log) : r.length = min log.length r.capacity := by
  rw [length, h.position_eq]

/-- The entries of a ring, oldest first, are the last ones of the log. -/
theorem Holds.toList_eq (h : r.Holds log) :
    r.toList = log.drop (log.length - min log.length r.capacity) := by
  have hlength := h.length_eq
  have hslots : ∀ n ∈ List.range' (r.position - r.length) r.length,
      r.slots[r.slotOf n]? = log[n]? := by
    intro n hn
    have hpos := h.position_eq
    rw [List.mem_range'_1] at hn
    exact h.slot_eq n (by omega) (by omega)
  unfold toList
  rw [List.filterMap_congr hslots, filterMap_range'_eq_drop, h.position_eq, hlength]
  have hpos := h.position_eq
  omega

/-- A new entry comes last, and the oldest one leaves if the ring is full. -/
theorem Holds.toList_insert (h : r.Holds log) (a : α) :
    (r.insert a).toList = (r.toList ++ [a]).drop (r.toList.length + 1 - r.capacity) := by
  have hcapacity : (r.insert a).capacity = r.capacity := rfl
  have hpos := r.capacity_pos
  have hlength : (log ++ [a]).length = log.length + 1 := by
    rw [List.length_append, List.length_singleton]
  rw [(h.insert a).toList_eq, hcapacity, hlength, h.toList_eq, List.length_drop,
    ← List.drop_append_of_le_length (Nat.sub_le _ _), List.drop_drop]
  congr 1
  omega

/-! ## Nothing is missed -/

/-- A ring that took a log whose length is a word works in range. -/
theorem Holds.inRange (h : r.Holds log) (hlog : log.length < 2 ^ 64) : r.InRange := by
  have hsize := r.size_slots
  have hpos := r.capacity_pos
  have hslot : ∀ n, r.slotOf n < r.capacity := fun n => Nat.mod_lt n hpos
  constructor
  case capacity_ne_zero => exact Nat.ne_of_gt hpos
  case slotOf_lt => exact hslot
  case insert_slot =>
    -- Up to the capacity the slots are filled in order; from then on each one is taken again.
    rcases Nat.lt_or_ge r.position r.capacity with hlt | hge
    · left
      rw [r.slotOf_of_lt hlt]
      omega
    · right
      have hlt := hslot r.position
      omega
  case live_slot =>
    intro n hn _
    rcases Nat.lt_or_ge r.position r.capacity with hlt | hge
    · -- An entry of a ring that is not full stands in the slot of its number.
      rw [r.slotOf_of_lt (by omega)]
      omega
    · have hlt := hslot n
      omega
  case length_le => exact Nat.min_le_left _ _
  case position_lt =>
    rw [h.position_eq]
    exact hlog

/-! ## The window -/

/-- A ring is the window of the log that was put into it. Its entries are the last ones of the log,
oldest first and counted; a number gives its entry within the window and nothing outside it; a slot
gives the newest entry that came to it, if one did; and no operation gets out of range. -/
theorem insertAll_window (capacity : Nat) (hcapacity : 0 < capacity) (log : List α)
    (hlog : log.length < 2 ^ 64) :
    ∃ r, (Ring.new capacity).map (fun r => insertAll r log) = .ok r ∧
      r.toList = log.drop (log.length - min log.length capacity) ∧
      r.length = r.toList.length ∧ r.length = min log.length capacity ∧
      r.position = log.length ∧
      (∀ k, ∀ hk : k < log.length, log.length ≤ k + capacity →
        r.getAbsolute? k = some log[k]) ∧
      (∀ i : Int, ¬(max 0 ((log.length : Int) - capacity) ≤ i ∧ i < log.length) →
        r.getAbsolute? i = none) ∧
      (∀ j < capacity, ∀ k, IsGreatest {k | k < log.length ∧ k % capacity = j} k →
        r.get? j = log[k]?) ∧
      (∀ j < capacity, (∀ k < log.length, k % capacity ≠ j) → r.get? j = none) ∧
      (∀ j : Int, j < 0 ∨ capacity ≤ j → r.get? j = none) ∧
      r.InRange := by
  have hholds : ((empty capacity hcapacity).insertAll log).Holds log :=
    (holds_empty capacity hcapacity).insertAll log
  have hcap : ((empty (α := α) capacity hcapacity).insertAll log).capacity = capacity :=
    capacity_insertAll _ log
  have hnew : (Ring.new capacity).map (fun r => insertAll r log) =
      .ok ((empty capacity hcapacity).insertAll log) := by
    rw [Ring.new, dif_pos hcapacity]
    rfl
  refine ⟨_, hnew, ?_⟩
  -- From here on the ring is any one that holds the log.
  generalize (empty capacity hcapacity).insertAll log = r at hholds hcap
  subst hcap
  have hlength := hholds.length_eq
  refine ⟨hholds.toList_eq, ?_, hlength, hholds.position_eq, ?_, ?_, ?_, ?_, ?_,
    hholds.inRange hlog⟩
  · rw [hholds.toList_eq, List.length_drop]
    omega
  · exact fun k hk hwindow => hholds.getAbsolute?_of_window hk hwindow
  · exact fun i hi => hholds.getAbsolute?_of_not_window hi
  · exact fun j _ k hk => hholds.get?_of_isGreatest hk
  · exact fun j hj hnone => hholds.get?_of_forall_ne hj hnone
  · exact fun j hj => r.get?_of_not_slot hj

/-- Four lines went into a ring of three: the first is gone, and the last is in its slot. -/
theorem insertAll_window_overwritten :
    ∃ r, (Ring.new 3).map (fun r => insertAll r ["a", "b", "c", "d"]) = .ok r ∧
      r.toList = ["b", "c", "d"] ∧ r.getAbsolute? 0 = none ∧ r.getAbsolute? 3 = some "d" ∧
      r.get? 0 = some "d" := by
  obtain ⟨r, hr, hlist, -, -, -, hnumber, hother, hslot, -⟩ :=
    insertAll_window 3 (by decide) ["a", "b", "c", "d"] (by decide)
  refine ⟨r, hr, hlist, hother 0 (by decide), hnumber 3 (by decide) (by decide), ?_⟩
  refine hslot 0 (by decide) 3 ⟨⟨by decide, rfl⟩, ?_⟩
  rintro k ⟨hk, -⟩
  exact Nat.le_of_lt_succ hk

end CelShell.Ring
