import Mathlib.Data.List.Perm.Subperm
import CelShell.Eval.Operation
import CelShell.Proofs.Number.Exact

/-!
# Is equality an equivalence

The equality of the language compares numbers across their types, at any depth of lists and maps. A
list and a map are both seen here as what they give for a place, an index or a key, and two of them
are equal if they give equal values for the same places (`Value.Alike`); for maps, which are
compared in one direction only, this takes that they have as many keys.

Among values without a NaN equality is then reflexive and symmetric. It is transitive as far as it
does not pass through a double that two different integers are rounded to, and where it does it is
not (`Value.Blurs`). Integers up to `2 ^ 53` are never blurred.
-/

namespace CelShell

namespace Table

variable {κ α : Type} [DecidableEq κ] {table : Table κ α} {key : κ} {value : α}

/-- What a table gives for a key is one of its pairs. -/
theorem mem_of_get? (h : get? table key = some value) : (key, value) ∈ table := by
  induction table with
  | nil => cases h
  | cons p rest ih =>
    obtain ⟨k, v⟩ := p
    rw [get?] at h
    split at h
    · next hk =>
      rw [hk, Option.some.inj h]
      exact List.mem_cons_self
    · exact List.mem_cons_of_mem _ (ih h)

/-- A table whose keys are distinct gives each of its pairs. -/
theorem get?_of_mem (hdistinct : (keys table).Nodup) (h : (key, value) ∈ table) :
    get? table key = some value := by
  induction table with
  | nil => cases h
  | cons p rest ih =>
    obtain ⟨k, v⟩ := p
    rw [keys, List.map_cons, List.nodup_cons] at hdistinct
    rw [get?]
    rcases List.mem_cons.1 h with heq | hrest
    · cases heq
      rw [if_pos rfl]
    · -- The pair is found behind, so its key is not the one in front.
      have hne : k ≠ key := by
        rintro rfl
        exact hdistinct.1 (List.mem_map.2 ⟨_, hrest, rfl⟩)
      rw [if_neg hne]
      exact ih hdistinct.2 hrest

/-- The keys of a table are those for which it gives something. -/
theorem mem_keys_iff (hdistinct : (keys table).Nodup) :
    key ∈ keys table ↔ ∃ value, get? table key = some value := by
  constructor
  · intro h
    obtain ⟨⟨k, v⟩, hmem, rfl⟩ := List.mem_map.1 h
    exact ⟨v, get?_of_mem hdistinct hmem⟩
  · rintro ⟨value, h⟩
    exact List.mem_map_of_mem (mem_of_get? h)

/-- A key is in both of two tables or in neither exactly if both give something for it or neither
does. -/
theorem mem_keys_congr {other : Table κ α} (h : (keys table).Nodup) (h' : (keys other).Nodup) :
    (key ∈ keys table ↔ key ∈ keys other) ↔ (get? table key = none ↔ get? other key = none) := by
  rw [mem_keys_iff h, mem_keys_iff h', ← Option.ne_none_iff_exists', ← Option.ne_none_iff_exists',
    ne_eq, ne_eq, not_iff_not]

end Table

namespace Double

variable {x y z : Double}

/-- Doubles are equal if they are numbers of the same rank. -/
theorem equals_iff : x.equals y = true ↔ x.isNaN = false ∧ y.isNaN = false ∧ x.rank = y.rank := by
  unfold equals compare?
  cases x.isNaN <;> cases y.isNaN <;> simp [Std.LawfulEqCmp.compare_eq_iff_eq]

/-- Equality passes from double to double. -/
theorem equals_trans (hxy : x.equals y = true) (hyz : y.equals z = true) : x.equals z = true := by
  obtain ⟨hx, -, hrank⟩ := equals_iff.1 hxy
  obtain ⟨-, hz, hrank'⟩ := equals_iff.1 hyz
  exact equals_iff.2 ⟨hx, hz, hrank.trans hrank'⟩

/-- Equality of doubles goes both ways. -/
theorem equals_symm (h : x.equals y = true) : y.equals x = true := by
  obtain ⟨hx, hy, hrank⟩ := equals_iff.1 h
  exact equals_iff.2 ⟨hy, hx, hrank.symm⟩

/-- A double that is a number equals itself. -/
theorem equals_self (h : x.isNaN = false) : x.equals x = true := equals_iff.2 ⟨h, h, rfl⟩

end Double

namespace Value

variable {a b c : Value}

/-! ## Numbers -/

/-- An integer is compared with a double by the double nearest to it. -/
theorem nearest?_of_integer? {n : Int} (h : a.integer? = some n) :
    a.nearest? = some (Double.ofInt n) := by
  cases a with
  | int | uint =>
    cases h
    rfl
  | _ => cases h

/-- Two numbers are equal if they are so as doubles and, both being integers, as integers. -/
theorem compareNumbers?_eq_iff :
    a.compareNumbers? b = some .eq ↔
      ∃ x y, a.nearest? = some x ∧ b.nearest? = some y ∧ x.equals y = true ∧
        ∀ m n, a.integer? = some m → b.integer? = some n → m = n := by
  -- Unless both are integers they are compared as doubles, and nothing is asked of integers.
  have hdoubles : (a.integer? = none ∨ b.integer? = none) →
      (a.compareNumbers? b = some .eq ↔
        ∃ x y, a.nearest? = some x ∧ b.nearest? = some y ∧ x.equals y = true) := by
    intro hnone
    have hcompare : a.compareNumbers? b = a.nearest?.bind fun x => b.nearest?.bind x.compare? := by
      unfold compareNumbers?
      generalize a.nearest? = x
      generalize b.nearest? = y
      split
      · next hm hn => simp [hm, hn] at hnone
      · cases x <;> cases y <;> rfl
    rw [hcompare]
    simp only [Option.bind_eq_some_iff, Double.equals, beq_iff_eq, exists_and_left]
  cases ha : a.integer? with
  | none => simpa [ha] using hdoubles (.inl ha)
  | some m =>
    cases hb : b.integer? with
    | none => simpa [ha, hb] using hdoubles (.inr hb)
    | some n =>
      have hcompare : a.compareNumbers? b = some (compare m n) := by
        unfold compareNumbers?
        rw [ha, hb]
      rw [hcompare, nearest?_of_integer? ha, nearest?_of_integer? hb]
      constructor
      · intro h
        obtain rfl : m = n := Std.LawfulEqCmp.eq_of_compare (Option.some.inj h)
        refine ⟨_, _, rfl, rfl, Double.equals_self (Double.isNaN_ofInt m), ?_⟩
        rintro _ _ ⟨⟩ ⟨⟩
        rfl
      · rintro ⟨-, -, -, -, -, heq⟩
        rw [heq m n rfl rfl, Std.compare_self]

/-- A number is equal to what compares with it as equal. -/
theorem equals_number_iff {x : Double} (ha : a.nearest? = some x) :
    a.equals b = true ↔ a.compareNumbers? b = some .eq := by
  cases a with
  | int | uint | double => cases b <;> simp only [equals, beq_iff_eq]
  | _ => cases ha

/-! ## Lists and maps by their places -/

/-- Two values that are given for places: for the same places, and equal at each. -/
structure Alike {κ : Type} (f g : κ → Option Value) : Prop where
  /-- The places are the same. -/
  places : ∀ k, f k = none ↔ g k = none
  /-- At each place the values are equal. -/
  equals : ∀ k a b, f k = some a → g k = some b → a.equals b = true

namespace Alike

variable {κ : Type} {f g h : κ → Option Value}

/-- What gives values that equal themselves is alike to itself. -/
theorem refl (hf : ∀ k a, f k = some a → a.equals a = true) : Alike f f where
  places _ := Iff.rfl
  equals k a b ha hb := by
    rw [ha] at hb
    exact Option.some.inj hb ▸ hf k a ha

/-- To be alike goes both ways where equality does. -/
theorem symm (hfg : Alike f g)
    (hf : ∀ k a b, f k = some a → g k = some b → a.equals b = true → b.equals a = true) :
    Alike g f where
  places k := (hfg.places k).symm
  equals k b a hb ha := hf k a b ha hb (hfg.equals k a b ha hb)

/-- What is alike has the same places. So of what is alike in a row, the first and the last are
alike if at no place the values from which equality does not pass are met. -/
theorem trans_iff {P : Value → Value → Value → Prop} (hfg : Alike f g) (hgh : Alike g h)
    (hP : ∀ k a b c, f k = some a → g k = some b → h k = some c →
      (a.equals c = true ↔ ¬ P a b c)) :
    Alike f h ↔ ∀ k a b c, f k = some a → g k = some b → h k = some c → ¬ P a b c := by
  constructor
  · intro hfh k a b c ha hb hc
    exact (hP k a b c ha hb hc).1 (hfh.equals k a c ha hc)
  · intro hnot
    refine ⟨fun k => (hfg.places k).trans (hgh.places k), fun k a c ha hc => ?_⟩
    -- What is alike has the same places, so there is a value between.
    have hb : g k ≠ none := fun hnone => by
      rw [(hfg.places k).2 hnone] at ha
      cases ha
    obtain ⟨b, hb⟩ := Option.ne_none_iff_exists'.1 hb
    exact (hP k a b c ha hb hc).2 (hnot k a b c ha hb hc)

end Alike

/-- Two lists are equal if they are so index by index. -/
theorem equals_list_iff {as bs : List Value} :
    (list as).equals (list bs) = true ↔ Alike (fun i : Nat => as[i]?) (fun i => bs[i]?) := by
  rw [equals]
  induction as generalizing bs with
  | nil =>
    cases bs with
    | nil => exact iff_of_true rfl ⟨fun _ => Iff.rfl, nofun⟩
    | cons b bs => exact iff_of_false nofun fun h => nomatch (h.places 0).1 rfl
  | cons a as ih =>
    cases bs with
    | nil => exact iff_of_false nofun fun h => nomatch (h.places 0).2 rfl
    | cons b bs =>
      rw [equalItems, Bool.and_eq_true, ih]
      constructor
      · rintro ⟨hhead, htail⟩
        refine ⟨fun i => ?_, fun i c d hc hd => ?_⟩
        · -- Index zero is the head, and the others are those of the tails.
          cases i with
          | zero => exact iff_of_false nofun nofun
          | succ i => exact htail.places i
        · cases i with
          | zero =>
            cases hc
            cases hd
            exact hhead
          | succ i => exact htail.equals i c d hc hd
      · intro h
        exact ⟨h.equals 0 a b rfl rfl, fun i => h.places (i + 1), fun i => h.equals (i + 1)⟩

/-- Every entry of the first of two maps has its like in the second. -/
theorem equalEntries_iff {as bs : Table MapKey Value} :
    equalEntries as bs = true ↔
      ∀ e ∈ as, ∃ b, Table.get? bs e.1 = some b ∧ e.2.equals b = true := by
  induction as with
  | nil => exact iff_of_true rfl (List.forall_mem_nil _)
  | cons e as ih =>
    obtain ⟨k, a⟩ := e
    rw [equalEntries, Bool.and_eq_true, ih, List.forall_mem_cons]
    refine and_congr_left fun _ => ?_
    cases Table.get? bs k <;> simp

/-- Two maps are equal if they are so key by key. Equality looks up the keys of the first map in the
second and compares the numbers of entries, so no key of the second is left over. -/
theorem equals_map_iff {as bs : Table MapKey Value} (has : (Table.keys as).Nodup)
    (hbs : (Table.keys bs).Nodup) :
    (map as).equals (map bs) = true ↔ Alike (Table.get? as) (Table.get? bs) := by
  have hlength : ∀ t : Table MapKey Value, (Table.keys t).length = t.length := fun t =>
    List.length_map _
  rw [equals, Bool.and_eq_true, beq_iff_eq, equalEntries_iff]
  constructor
  · rintro ⟨hsize, hentries⟩
    have hsubset : Table.keys as ⊆ Table.keys bs := by
      intro k hk
      obtain ⟨e, he, rfl⟩ := List.mem_map.1 hk
      obtain ⟨b, hb, -⟩ := hentries e he
      exact (Table.mem_keys_iff hbs).2 ⟨b, hb⟩
    -- Distinct keys that are all among as many others are these others.
    have hperm : (Table.keys as).Perm (Table.keys bs) := by
      refine (List.subperm_of_subset has hsubset).perm_of_length_le ?_
      rw [hlength, hlength, hsize]
    refine ⟨fun k => (Table.mem_keys_congr has hbs).1 hperm.mem_iff, fun k a b ha hb => ?_⟩
    obtain ⟨b', hb', hequals⟩ := hentries (k, a) (Table.mem_of_get? ha)
    rw [hb, Option.some.injEq] at hb'
    exact hb' ▸ hequals
  · intro h
    -- At each key both maps have a value or neither has one.
    have hkey : ∀ k, k ∈ Table.keys as ↔ k ∈ Table.keys bs := fun k =>
      (Table.mem_keys_congr has hbs).2 (h.places k)
    have hperm : (Table.keys as).Perm (Table.keys bs) :=
      (List.perm_ext_iff_of_nodup has hbs).2 hkey
    refine ⟨?_, fun e he => ?_⟩
    · rw [← hlength, ← hlength]
      exact hperm.length_eq
    · have ha : Table.get? as e.1 = some e.2 := Table.get?_of_mem has he
      obtain ⟨b, hb⟩ := (Table.mem_keys_iff hbs).1 ((hkey e.1).1 (List.mem_map_of_mem he))
      exact ⟨b, hb, h.equals e.1 e.2 b ha hb⟩

/-! ## Values without a NaN -/

/-- A value that holds no NaN, at any depth, and whose maps have each key once. -/
inductive IsProper : Value → Prop where
  | null : IsProper null
  | bool (b : Bool) : IsProper (bool b)
  | int (n : Int64) : IsProper (int n)
  | uint (n : UInt64) : IsProper (uint n)
  | double {d : Double} (h : d.isNaN = false) : IsProper (double d)
  | string (s : String) : IsProper (string s)
  | list {items : List Value} (h : ∀ v ∈ items, IsProper v) : IsProper (list items)
  | map {entries : List (MapKey × Value)} (hdistinct : (Table.keys entries).Nodup)
      (hvalues : ∀ e ∈ entries, IsProper e.2) : IsProper (map entries)

/-- A number without a NaN equals itself. -/
theorem equals_self_of_number {x : Double} (ha : a.nearest? = some x) (hx : x.isNaN = false) :
    a.equals a = true := by
  refine (equals_number_iff ha).2 (compareNumbers?_eq_iff.2 ⟨x, x, ha, ha,
    Double.equals_self hx, fun m n hm hn => ?_⟩)
  rw [hm] at hn
  exact Option.some.inj hn

/-- A value equals itself. -/
theorem equals_self (h : a.IsProper) : a.equals a = true := by
  induction h with
  | null => rfl
  | bool | string => exact beq_self_eq_true _
  | int | uint => exact equals_self_of_number rfl (Double.isNaN_ofInt _)
  | double h => exact equals_self_of_number rfl h
  | list _ ih =>
    exact equals_list_iff.2 (.refl fun i v hv => ih v (List.mem_of_getElem? hv))
  | map hdistinct _ ih =>
    exact (equals_map_iff hdistinct hdistinct).2
      (.refl fun k v hv => ih (k, v) (Table.mem_of_get? hv))

/-- Numbers that are equal are so in the other order. -/
theorem equals_symm_of_number {x : Double} (ha : a.nearest? = some x) (h : a.equals b = true) :
    b.equals a = true := by
  obtain ⟨y, z, hy, hz, hyz, hintegers⟩ := compareNumbers?_eq_iff.1 ((equals_number_iff ha).1 h)
  exact (equals_number_iff hz).2 (compareNumbers?_eq_iff.2 ⟨z, y, hz, hy, Double.equals_symm hyz,
    fun n m hn hm => (hintegers m n hm hn).symm⟩)

/-- What is neither a number nor a list nor a map equals nothing else. -/
theorem eq_of_equals (h : a.equals b = true) (hnumber : a.nearest? = none)
    (hlist : ∀ as, a ≠ list as) (hmap : ∀ as, a ≠ map as) : a = b := by
  have hcompare : ∀ v, a.compareNumbers? v ≠ some .eq := by
    intro v hv
    obtain ⟨x, -, hx, -⟩ := compareNumbers?_eq_iff.1 hv
    rw [hnumber] at hx
    cases hx
  cases a with
  | list as => exact absurd rfl (hlist as)
  | map as => exact absurd rfl (hmap as)
  | int | uint | double => cases hnumber
  | null | bool | string =>
    cases b <;> simp_all only [equals, beq_iff_eq, reduceCtorEq, not_false_eq_true, ne_eq]

/-- Only a list equals a list. -/
theorem exists_list_of_equals {as : List Value} (h : (list as).equals b = true) :
    ∃ bs, b = list bs := by
  cases b with
  | list bs => exact ⟨bs, rfl⟩
  | _ => simp [equals, compareNumbers?, integer?, nearest?] at h

/-- Only a map equals a map. -/
theorem exists_map_of_equals {as : List (MapKey × Value)} (h : (map as).equals b = true) :
    ∃ bs, b = map bs := by
  cases b with
  | map bs => exact ⟨bs, rfl⟩
  | _ => simp [equals, compareNumbers?, integer?, nearest?] at h

/-- Values that are equal are so in the other order. -/
theorem equals_symm (ha : a.IsProper) (hb : b.IsProper) (h : a.equals b = true) :
    b.equals a = true := by
  induction ha generalizing b with
  | null | bool | string =>
    obtain rfl := eq_of_equals h rfl nofun nofun
    exact h
  | int | uint | double => exact equals_symm_of_number rfl h
  | @list as has ih =>
    obtain ⟨bs, rfl⟩ := exists_list_of_equals h
    cases hb with
    | list hbs =>
      refine equals_list_iff.2 ((equals_list_iff.1 h).symm fun i v w hv hw hvw => ?_)
      exact ih v (List.mem_of_getElem? hv) (hbs w (List.mem_of_getElem? hw)) hvw
  | @map as has _ ih =>
    obtain ⟨bs, rfl⟩ := exists_map_of_equals h
    cases hb with
    | map hbs hvalues =>
      refine (equals_map_iff hbs has).2 (((equals_map_iff has hbs).1 h).symm
        fun k v w hv hw hvw => ?_)
      exact ih (k, v) (Table.mem_of_get? hv) (hvalues (k, w) (Table.mem_of_get? hw)) hvw

/-! ## Where equality is not transitive -/

/-- At one place of three values, the same in all of them, a double stands between two different
integers that are both rounded to it. -/
inductive Blurs : Value → Value → Value → Prop where
  | here {a c : Value} {m n : Int} {d : Double} (ha : a.integer? = some m)
      (hc : c.integer? = some n) (hne : m ≠ n) (hm : (Double.ofInt m).equals d = true)
      (hn : d.equals (Double.ofInt n) = true) : Blurs a (double d) c
  | item {as bs cs : List Value} {a b c : Value} (i : Nat) (ha : as[i]? = some a)
      (hb : bs[i]? = some b) (hc : cs[i]? = some c) (h : Blurs a b c) :
      Blurs (list as) (list bs) (list cs)
  | entry {as bs cs : List (MapKey × Value)} {a b c : Value} (k : MapKey)
      (ha : Table.get? as k = some a) (hb : Table.get? bs k = some b)
      (hc : Table.get? cs k = some c) (h : Blurs a b c) : Blurs (map as) (map bs) (map cs)

/-- Equal numbers are those of equal doubles; what else they have to be, as integers, is lost if the
number between them is a double that blurs them. -/
theorem equals_trans_iff_of_number {x : Double} (ha : a.nearest? = some x)
    (hab : a.equals b = true) (hbc : b.equals c = true) :
    a.equals c = true ↔ ¬ Blurs a b c := by
  obtain ⟨x, y, hx, hy, hxy, habs⟩ := compareNumbers?_eq_iff.1 ((equals_number_iff ha).1 hab)
  obtain ⟨y', z, hy', hz, hyz, hbcs⟩ := compareNumbers?_eq_iff.1 ((equals_number_iff hy).1 hbc)
  obtain rfl : y = y' := Option.some.inj (hy.symm.trans hy')
  have hxz : x.equals z = true := Double.equals_trans hxy hyz
  rw [equals_number_iff ha, compareNumbers?_eq_iff]
  constructor
  · rintro ⟨-, -, -, -, -, hacs⟩ hblurs
    cases hblurs with
    | here hm hn hne => exact hne (hacs _ _ hm hn)
    | item => cases ha
    | entry => cases ha
  · intro hblurs
    refine ⟨x, z, hx, hz, hxz, fun m n hm hn => ?_⟩
    cases hk : b.integer? with
    | some k => exact (habs m k hm hk).trans (hbcs k n hk hn)
    | none =>
      -- The number between is a double, to which both integers are rounded.
      obtain ⟨d, rfl⟩ : ∃ d, b = double d := by
        cases b with
        | double d => exact ⟨d, rfl⟩
        | int | uint => cases hk
        | _ => cases hy
      cases hy
      rw [nearest?_of_integer? hm, Option.some.injEq] at hx
      rw [nearest?_of_integer? hn, Option.some.injEq] at hz
      by_contra hne
      exact hblurs (.here hm hn hne (hx ▸ hxy) (hz ▸ hyz))

/-- Values that are equal in a row are equal, unless one blurs those before and after it. -/
theorem equals_trans_iff (ha : a.IsProper) (hb : b.IsProper) (hc : c.IsProper)
    (hab : a.equals b = true) (hbc : b.equals c = true) :
    a.equals c = true ↔ ¬ Blurs a b c := by
  induction ha generalizing b c with
  | null | bool | string =>
    obtain rfl := eq_of_equals hab rfl nofun nofun
    exact iff_of_true hbc nofun
  | int | uint | double => exact equals_trans_iff_of_number rfl hab hbc
  | @list as _ ih =>
    obtain ⟨bs, rfl⟩ := exists_list_of_equals hab
    obtain ⟨cs, rfl⟩ := exists_list_of_equals hbc
    cases hb with | list hbs
    cases hc with | list hcs
    have hitems := equals_list_iff.1 hab
    have hitems' := equals_list_iff.1 hbc
    -- By induction, index by index.
    have htrans : ∀ (i : Nat) (u v w : Value), as[i]? = some u → bs[i]? = some v →
        cs[i]? = some w → (u.equals w = true ↔ ¬ Blurs u v w) := by
      intro i u v w hu hv hw
      exact ih u (List.mem_of_getElem? hu) (hbs v (List.mem_of_getElem? hv))
        (hcs w (List.mem_of_getElem? hw)) (hitems.equals i u v hu hv) (hitems'.equals i v w hv hw)
    rw [equals_list_iff, hitems.trans_iff hitems' htrans]
    constructor
    · intro hnot hblurs
      cases hblurs with
      | item i hu hv hw h => exact hnot i _ _ _ hu hv hw h
    · intro hnot i u v w hu hv hw h
      exact hnot (.item i hu hv hw h)
  | @map as has _ ih =>
    obtain ⟨bs, rfl⟩ := exists_map_of_equals hab
    obtain ⟨cs, rfl⟩ := exists_map_of_equals hbc
    cases hb with | map hbs hvalues
    cases hc with | map hcs hvalues'
    have hentries := (equals_map_iff has hbs).1 hab
    have hentries' := (equals_map_iff hbs hcs).1 hbc
    -- By induction, key by key.
    have htrans : ∀ (k : MapKey) (u v w : Value), Table.get? as k = some u →
        Table.get? bs k = some v → Table.get? cs k = some w →
        (u.equals w = true ↔ ¬ Blurs u v w) := by
      intro k u v w hu hv hw
      exact ih (k, u) (Table.mem_of_get? hu) (hvalues (k, v) (Table.mem_of_get? hv))
        (hvalues' (k, w) (Table.mem_of_get? hw)) (hentries.equals k u v hu hv)
        (hentries'.equals k v w hv hw)
    rw [equals_map_iff has hcs, hentries.trans_iff hentries' htrans]
    constructor
    · intro hnot hblurs
      cases hblurs with
      | entry k hu hv hw h => exact hnot k _ _ _ hu hv hw h
    · intro hnot k u v w hu hv hw h
      exact hnot (.entry k hu hv hw h)

/-- A value in which an integer beyond `2 ^ 53` stands, at any depth. -/
inductive HoldsGreat : Value → Prop where
  | here {v : Value} {n : Int} (hv : v.integer? = some n) (h : 2 ^ 53 < n.natAbs) : HoldsGreat v
  | item {items : List Value} {v : Value} (hv : v ∈ items) (h : HoldsGreat v) :
      HoldsGreat (list items)
  | entry {entries : List (MapKey × Value)} {e : MapKey × Value} (he : e ∈ entries)
      (h : HoldsGreat e.2) : HoldsGreat (map entries)

/-- Only an integer beyond `2 ^ 53` is blurred with another one. -/
theorem Blurs.holdsGreat (h : Blurs a b c) : a.HoldsGreat ∨ c.HoldsGreat := by
  induction h with
  | @here a c m n d ha hc hne hm hn =>
    by_contra hsmall
    rw [not_or] at hsmall
    have hm' : m.natAbs ≤ 2 ^ 53 := Nat.le_of_not_lt fun h => hsmall.1 (.here ha h)
    have hn' : n.natAbs ≤ 2 ^ 53 := Nat.le_of_not_lt fun h => hsmall.2 (.here hc h)
    obtain ⟨-, -, hrank⟩ := Double.equals_iff.1 (Double.equals_trans hm hn)
    exact hne (Double.eq_of_rank_ofInt hm' hn' hrank)
  | item i ha _ hc _ ih =>
    exact ih.imp (.item (List.mem_of_getElem? ha)) (.item (List.mem_of_getElem? hc))
  | entry k ha _ hc _ ih =>
    exact ih.imp (.entry (Table.mem_of_get? ha)) (.entry (Table.mem_of_get? hc))

/-- The equality of the language, on values that hold no NaN. It is reflexive and symmetric, and
transitive exactly where no double blurs two integers, of which one is beyond `2 ^ 53`. -/
theorem equals_is_equivalence_unless_blurred (ha : a.IsProper) (hb : b.IsProper)
    (hc : c.IsProper) :
    BinaryOp.equals.apply a b = .ok (.bool (a.equals b)) ∧
      a.equals a = true ∧ a.equals b = b.equals a ∧
      (a.equals b = true → b.equals c = true → (a.equals c = true ↔ ¬ Blurs a b c)) ∧
      (Blurs a b c → a.HoldsGreat ∨ c.HoldsGreat) := by
  have hsymm : a.equals b = b.equals a :=
    Bool.eq_iff_iff.2 ⟨equals_symm ha hb, equals_symm hb ha⟩
  exact ⟨rfl, equals_self ha, hsymm, equals_trans_iff ha hb hc, Blurs.holdsGreat⟩

/-- Two numbers, one of them in a map, in the three types that numbers have. -/
def mixedNumbers (one two : Value) : Value := list [one, map [(.string "two", two)]]

/-- Numbers in a list and in a map hold no NaN if they are none themselves. -/
theorem isProper_mixedNumbers (ha : a.IsProper) (hb : b.IsProper) :
    (mixedNumbers a b).IsProper := by
  have hentries : ∀ e ∈ [(MapKey.string "two", b)], IsProper e.2 := List.forall_mem_singleton.2 hb
  have hmap : (map [(.string "two", b)]).IsProper := .map (List.pairwise_singleton _ _) hentries
  exact .list (List.forall_mem_cons.2 ⟨ha, List.forall_mem_singleton.2 hmap⟩)

/-- Numbers of three types that are worth the same, in lists and maps, are equal all around. -/
theorem equals_is_equivalence_unless_blurred_mixed :
    (mixedNumbers (int 1) (uint 2)).equals (mixedNumbers (uint 1) (int 2)) = true ∧
      ¬ Blurs (mixedNumbers (int 1) (uint 2))
        (mixedNumbers (double (Double.ofInt 1)) (double (Double.ofInt 2)))
        (mixedNumbers (uint 1) (int 2)) := by
  have hab : (mixedNumbers (int 1) (uint 2)).equals
      (mixedNumbers (double (Double.ofInt 1)) (double (Double.ofInt 2))) = true := by
    decide +kernel
  have hbc : (mixedNumbers (double (Double.ofInt 1)) (double (Double.ofInt 2))).equals
      (mixedNumbers (uint 1) (int 2)) = true := by
    decide +kernel
  have hac : (mixedNumbers (int 1) (uint 2)).equals (mixedNumbers (uint 1) (int 2)) = true := by
    decide +kernel
  obtain ⟨-, -, -, htrans, -⟩ := equals_is_equivalence_unless_blurred
    (isProper_mixedNumbers (.int 1) (.uint 2))
    (isProper_mixedNumbers (.double (Double.isNaN_ofInt 1)) (.double (Double.isNaN_ofInt 2)))
    (isProper_mixedNumbers (.uint 1) (.int 2))
  exact ⟨hac, (htrans hab hbc).1 hac⟩

/-- The first integer that no double is, and the one before it, equal the same double but not each
other. -/
theorem equals_not_transitive :
    IsProper (int 9007199254740993) ∧ IsProper (double (Double.ofInt 9007199254740992)) ∧
      IsProper (int 9007199254740992) ∧
      (int 9007199254740993).equals (double (Double.ofInt 9007199254740992)) = true ∧
      (double (Double.ofInt 9007199254740992)).equals (int 9007199254740992) = true ∧
      (int 9007199254740993).equals (int 9007199254740992) = false :=
  ⟨.int _, .double (Double.isNaN_ofInt _), .int _, by decide +kernel, by decide +kernel,
    by decide +kernel⟩

end Value

end CelShell
