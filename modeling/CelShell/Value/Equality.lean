import CelShell.Value.Basic

/-!
# Equality and order of values

Two equalities. `Value.same` tells types apart: an int is never a double. `Value.equals` is the
equality of the language and compares numbers by what they are worth, at any depth of lists and
maps. Integers are compared exactly; an integer and a double are compared as doubles, so a great
integer is rounded first. Maps are compared without regard to order.
-/

namespace CelShell.Value

/-- The integer that a value is, signed or unsigned. -/
def integer? : Value → Option Int
  | int n => some n.toInt
  | uint n => some n.toNat
  | _ => none

/-- The double nearest to a number. -/
def nearest? : Value → Option Double
  | double d => some d
  | v => v.integer?.map Double.ofInt

/-- How two numbers compare; a NaN and what is no number compare with nothing. -/
def compareNumbers? (a b : Value) : Option Ordering :=
  match a.integer?, b.integer? with
  | some x, some y => some (compare x y)
  | _, _ =>
    match a.nearest?, b.nearest? with
    | some x, some y => x.compare? y
    | _, _ => none

mutual

/-- Whether two values are of the same types and equal; a NaN is not equal to itself. -/
def same : Value → Value → Bool
  | null, null => true
  | bool a, bool b => a == b
  | int a, int b => a == b
  | uint a, uint b => a == b
  | double a, double b => a.equals b
  | string a, string b => a == b
  | list as, list bs => sameItems as bs
  | map as, map bs => as.length == bs.length && sameEntries as bs
  | _, _ => false

/-- Whether two lists have the same elements. -/
def sameItems : List Value → List Value → Bool
  | [], [] => true
  | a :: as, b :: bs => a.same b && sameItems as bs
  | _, _ => false

/-- Whether every entry of the first is an entry of the second. -/
def sameEntries : List (MapKey × Value) → List (MapKey × Value) → Bool
  | [], _ => true
  | (k, a) :: rest, bs =>
    (match Table.get? bs k with
      | some b => a.same b
      | none => false) && sameEntries rest bs

end

mutual

/-- Whether two values are equal, numbers by what they are worth. -/
def equals : Value → Value → Bool
  | list as, list bs => equalItems as bs
  | map as, map bs => as.length == bs.length && equalEntries as bs
  | null, null => true
  | bool a, bool b => a == b
  | string a, string b => a == b
  | a, b => a.compareNumbers? b == some .eq

/-- Whether two lists have equal elements. -/
def equalItems : List Value → List Value → Bool
  | [], [] => true
  | a :: as, b :: bs => a.equals b && equalItems as bs
  | _, _ => false

/-- Whether every entry of the first equals one of the second. -/
def equalEntries : List (MapKey × Value) → List (MapKey × Value) → Bool
  | [], _ => true
  | (k, a) :: rest, bs =>
    (match Table.get? bs k with
      | some b => a.equals b
      | none => false) && equalEntries rest bs

end

/-- How two values of an ordered type compare, `none` within for a NaN. There is no order between
a text, a truth value and a number, nor any among other values. -/
def compare? : Value → Value → Option (Option Ordering)
  | string a, string b => some (some (compare a b))
  | bool a, bool b => some (some (compare a b))
  | a, b =>
    if a.nearest?.isSome && b.nearest?.isSome then some (a.compareNumbers? b) else none

end CelShell.Value
