import CelShell.History.Ring

/-!
# Rings hold the end of a log

`Ring.Holds` relates a ring to the list of all entries that were put into it: the position counts
them, and each of the last `capacity` of them is in its slot. `Holds.insert` keeps the relation,
since a new entry takes the slot of none of the entries that are still to be found, and
`Holds.getAbsolute?_eq` reads off which entry a number gives.
-/

namespace CelShell.Ring

variable {α : Type} {r : Ring α} {log : List α}

/-- The ring has taken the entries of a log, and the last of them are in their slots. -/
structure Holds (r : Ring α) (log : List α) : Prop where
  /-- Every entry was counted. -/
  position_eq : r.position = log.length
  /-- An entry that is followed by fewer than `capacity` others is in its slot. -/
  slot_eq : ∀ k < log.length, log.length ≤ k + r.capacity → r.slots[r.slotOf k]? = log[k]?

/-- The ring without entries has taken none. -/
theorem holds_empty (capacity : Nat) (h : 0 < capacity) : (empty (α := α) capacity h).Holds [] where
  position_eq := rfl
  slot_eq := fun k hk => absurd hk (Nat.not_lt_zero k)

/-- Two entries fewer than `capacity` apart have different slots. -/
theorem slotOf_ne (r : Ring α) {k n : Nat} (hkn : k < n) (hn : n < k + r.capacity) :
    r.slotOf n ≠ r.slotOf k := by
  unfold slotOf
  intro h
  have hd : r.capacity ∣ n - k := Nat.dvd_of_mod_eq_zero (Nat.sub_mod_eq_zero_of_mod_eq h)
  have hle : r.capacity ≤ n - k := Nat.le_of_dvd (by omega) hd
  omega

/-- A ring that is not full has its entries in the slots of their numbers. -/
theorem slotOf_of_lt (r : Ring α) {k : Nat} (hk : k < r.capacity) : r.slotOf k = k :=
  Nat.mod_eq_of_lt hk

/-- A new entry is in its slot. -/
theorem insert_slots_self (r : Ring α) (a : α) :
    (r.insert a).slots[r.slotOf r.position]? = some a := by
  have hsize := r.size_slots
  have hpos := r.capacity_pos
  show (if r.position < r.capacity then r.slots.push a
    else r.slots.setIfInBounds (r.slotOf r.position) a)[r.slotOf r.position]? = some a
  by_cases hlt : r.position < r.capacity
  · have hs : r.slots.size = r.position := by omega
    rw [if_pos hlt, r.slotOf_of_lt hlt, ← hs, Array.getElem?_push_size]
  · have hs : r.slotOf r.position < r.slots.size := by
      have hmod : r.slotOf r.position < r.capacity := Nat.mod_lt _ hpos
      omega
    rw [if_neg hlt, Array.getElem?_setIfInBounds_self_of_lt hs]

/-- A new entry leaves every other slot as it was. -/
theorem insert_slots_of_ne (r : Ring α) (a : α) {slot : Nat} (h : r.slotOf r.position ≠ slot) :
    (r.insert a).slots[slot]? = r.slots[slot]? := by
  have hsize := r.size_slots
  show (if r.position < r.capacity then r.slots.push a
    else r.slots.setIfInBounds (r.slotOf r.position) a)[slot]? = r.slots[slot]?
  by_cases hlt : r.position < r.capacity
  · have hs : r.slots.size = r.position := by omega
    rw [r.slotOf_of_lt hlt] at h
    rw [if_pos hlt, Array.getElem?_push, if_neg (by omega)]
  · rw [if_neg hlt, Array.getElem?_setIfInBounds_ne h]

/-- One more entry of the ring is one more entry of the log. -/
theorem Holds.insert (h : r.Holds log) (a : α) : (r.insert a).Holds (log ++ [a]) := by
  have hpos := h.position_eq
  constructor
  · show r.position + 1 = (log ++ [a]).length
    rw [hpos, List.length_append, List.length_singleton]
  · intro k hk hwindow
    rw [List.length_append, List.length_singleton] at hk hwindow
    change log.length + 1 ≤ k + r.capacity at hwindow
    show (r.insert a).slots[r.slotOf k]? = _
    rcases Nat.lt_succ_iff_lt_or_eq.mp hk with hlt | heq
    · -- An entry of before: it is close enough to the new one to have another slot.
      have hne : r.slotOf r.position ≠ r.slotOf k := r.slotOf_ne (by omega) (by omega)
      rw [r.insert_slots_of_ne a hne, List.getElem?_append_left hlt]
      exact h.slot_eq k hlt (by omega)
    · have hk : k = r.position := by omega
      rw [hk, r.insert_slots_self, hpos, List.getElem?_concat_length]

/-- A number gives the entry of the log that has it, unless it is yet to come or is followed by
`capacity` others. -/
theorem Holds.getAbsolute?_eq (h : r.Holds log) (n : Int) :
    r.getAbsolute? n =
      if 0 ≤ n ∧ n < log.length ∧ log.length - n ≤ r.capacity then log[n.toNat]? else none := by
  unfold getAbsolute?
  rw [h.position_eq]
  split
  · next hn => exact h.slot_eq n.toNat (by omega) (by omega)
  · rfl

end CelShell.Ring
