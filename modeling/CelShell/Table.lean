/-!
# Tables

Pairs of keys and values in the order in which the keys were first put in. Every name space of the
project is one: variables, bindings, scopes, and the entries of a map.
-/

namespace CelShell

/-- Pairs of keys and values. The first pair of a key is the one that counts. -/
abbrev Table (κ α : Type) := List (κ × α)

namespace Table

variable {κ α : Type} [DecidableEq κ]

/-- The value of a key. -/
def get? : Table κ α → κ → Option α
  | [], _ => none
  | (k, v) :: rest, key => if k = key then some v else get? rest key

/-- Whether a key has a value. -/
def contains (table : Table κ α) (key : κ) : Bool := (get? table key).isSome

/-- Gives a key a value: in the place of its old one, or at the end. -/
def insert : Table κ α → κ → α → Table κ α
  | [], key, value => [(key, value)]
  | (k, v) :: rest, key, value =>
    if k = key then (key, value) :: rest else (k, v) :: insert rest key value

/-- Gives keys their values one after the other. -/
def insertAll (table : Table κ α) (pairs : List (κ × α)) : Table κ α :=
  pairs.foldl (fun t p => insert t p.1 p.2) table

omit [DecidableEq κ] in
/-- The keys, in order. -/
def keys (table : Table κ α) : List κ := table.map Prod.fst

/-- A key that was just given a value has it, and the others keep theirs. -/
theorem get?_insert (table : Table κ α) (key other : κ) (value : α) :
    get? (insert table key value) other = if key = other then some value else get? table other := by
  induction table with
  | nil => simp [insert, get?]
  | cons p rest ih =>
    obtain ⟨k, v⟩ := p
    -- The pair in front is of the key, of the other one, or of neither.
    by_cases h : k = key
    · by_cases ho : key = other <;> simp [insert, get?, h, ho]
    · by_cases ho : k = other
      · have hne : ¬ other = key := fun he => h (ho.trans he)
        have hne' : ¬ key = other := fun he => hne he.symm
        simp [insert, get?, ho, hne, hne']
      · simp [insert, get?, h, ho, ih]

end Table

end CelShell
