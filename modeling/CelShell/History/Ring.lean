import CelShell.Number.Digits

/-!
# Rings

A log of bounded length. The `k`-th entry, counted from zero, goes into slot `k` modulo the
capacity, so from some point on each entry takes the slot of the oldest one. Entries are found by
slot (`get?`) or by number (`getAbsolute?`); only the second knows whether an entry is still there.
-/

namespace CelShell

/-- The last entries of a log. -/
structure Ring (α : Type) where
  /-- How many entries are kept. -/
  capacity : Nat
  /-- The slots that have been filled. -/
  slots : Array α
  /-- How many entries there were. The count and the numbers by which entries are looked up have no
  bound here. Words of 64 bits, signed ones for the look-up, agree with them as long as there are
  fewer than `2 ^ 63` entries. -/
  position : Nat
  /-- At least one entry is kept. -/
  capacity_pos : 0 < capacity
  /-- Slots are filled in order. -/
  size_slots : slots.size = min position capacity

/-- A capacity that keeps no entry. -/
structure CapacityError where
  /-- The capacity asked for. -/
  capacity : Nat
  deriving DecidableEq, Repr

/-- The text of the error. -/
def CapacityError.text (e : CapacityError) : String :=
  "history capacity must be positive, got " ++ String.ofList (Number.toDigits e.capacity)

namespace Ring

/-- The ring without entries. -/
def empty (capacity : Nat) (h : 0 < capacity) : Ring α := ⟨capacity, #[], 0, h, by simp⟩

/-- The ring without entries, if its capacity allows any. A slot is there once it is filled. That
memory for all slots may be asked for ahead, and may be refused, is not modelled. -/
def new (capacity : Nat) : Except CapacityError (Ring α) :=
  if h : 0 < capacity then .ok (empty capacity h) else .error ⟨capacity⟩

/-- The slot of an entry. -/
def slotOf (r : Ring α) (n : Nat) : Nat := n % r.capacity

/-- One more entry. -/
def insert (r : Ring α) (a : α) : Ring α where
  capacity := r.capacity
  slots :=
    if r.position < r.capacity then r.slots.push a
    else r.slots.setIfInBounds (r.slotOf r.position) a
  position := r.position + 1
  capacity_pos := r.capacity_pos
  size_slots := by
    have h := r.size_slots
    split <;> simp only [Array.size_push, Array.size_setIfInBounds] <;> omega

/-- What is in a slot. -/
def get? (r : Ring α) (slot : Int) : Option α :=
  if 0 ≤ slot then r.slots[slot.toNat]? else none

/-- The entry of a number, unless it is yet to come or has been overwritten. -/
def getAbsolute? (r : Ring α) (n : Int) : Option α :=
  if 0 ≤ n ∧ n < r.position ∧ r.position - n ≤ r.capacity then r.slots[r.slotOf n.toNat]?
  else none

/-- How many entries are there. -/
def length (r : Ring α) : Nat := min r.position r.capacity

/-- Whether there was no entry yet. -/
def isEmpty (r : Ring α) : Bool := r.position == 0

/-- The entries, oldest first. -/
def toList (r : Ring α) : List α :=
  (List.range' (r.position - r.length) r.length).filterMap fun n => r.slots[r.slotOf n]?

end Ring

end CelShell
