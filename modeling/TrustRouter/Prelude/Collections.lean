import Mathlib.Algebra.BigOperators.Group.List.Basic
import Mathlib.Algebra.GroupWithZero.Nat
import Mathlib.Data.List.AList
import Mathlib.Data.List.Induction
import Mathlib.Data.List.Sort
import Mathlib.Logic.Function.Basic
import Mathlib.Order.Basic

/-!
# Collections

## Hash maps

`HashMap κ ν` is Mathlib's association list without duplicate keys, at a
constant family.  Mathlib has lookup, insertion and removal; what is added here
is what walks the whole map: `retain`, which keeps the entries a predicate
accepts, and `mapValues`, which updates every value in place.  A program sees a
map through `lookup`, so each operation comes with its lookup equation.

The order of `entries` stands for the iteration order of the map.  A hash map
promises no order, so an operation whose result could show it takes an
`IterationOrder` instead.

A table that is never walked is a function into `Option`, updated at a key
(`update_eq_some_iff`).

## Ordered maps

`BTreeMap κ ν` is the list of its entries in the order of their keys, which is the order
a walk meets them in.  It is determined by what its look-ups find (`BTreeMap.ext_get`).

## Binary heaps

A binary heap is the list of its elements; `pop` takes a greatest one.  The
comparison need not be a lawful order on all values (one on floating point keys
is not), so what `pop` gives is stated through a key that the comparison agrees
with on the elements present (`BinaryHeap.key_le_of_pop`).

## Sorting

`sortBy` sorts by a comparison.  Where the comparison is that of a key, the first element
has the least (`key_head_sortBy_le`).
-/

namespace TrustRouter

universe u v

/-- What is found after an entry has been set is that entry, or was there. -/
theorem update_eq_some_iff {κ : Type u} {ν : Type v} [DecidableEq κ] {f : κ → Option ν}
    {k k' : κ} {x y : ν} :
    Function.update f k (some x) k' = some y ↔ k' = k ∧ x = y ∨ k' ≠ k ∧ f k' = some y := by
  by_cases same : k' = k
  · simp [same]
  · simp [same, Function.update_of_ne]

/-- A map along a list is pushed through one that knows the places. -/
theorem map_mapIdx {α β γ : Type*} (f : β → γ) (g : ℕ → α → β) (items : List α) :
    (items.mapIdx g).map f = items.mapIdx fun k a => f (g k a) :=
  List.ext_getElem (by simp) fun k _ _ => by simp

/-- A finite map from `κ` to `ν`. -/
abbrev HashMap (κ : Type u) (ν : Type v) := AList (fun _ : κ => ν)

namespace HashMap

variable {κ : Type u} {ν : Type v}

/-- Keep the entries `keep` accepts, in their order. -/
def retain (keep : κ → ν → Bool) (m : HashMap κ ν) : HashMap κ ν where
  entries := m.entries.filter fun entry => keep entry.1 entry.2
  nodupKeys := m.nodupKeys.sublist List.filter_sublist

/-- Replace every value by `f` of it. -/
def mapValues (f : κ → ν → ν) (m : HashMap κ ν) : HashMap κ ν where
  entries := m.entries.map fun entry => ⟨entry.1, f entry.1 entry.2⟩
  nodupKeys := by
    have keys : (m.entries.map fun entry : Sigma fun _ : κ => ν =>
        (⟨entry.1, f entry.1 entry.2⟩ : Sigma fun _ : κ => ν)).keys = m.entries.keys := by
      simp [List.keys, Function.comp_def]
    have nodup := m.nodupKeys
    rw [List.NodupKeys] at nodup ⊢
    rwa [keys]

/-- The keys of the values `select` accepts. -/
def keysWhere (select : ν → Bool) (m : HashMap κ ν) : List κ :=
  m.entries.filterMap fun entry => if select entry.2 then some entry.1 else none

/-- The number of entries. -/
def len (m : HashMap κ ν) : ℕ := m.entries.length

@[simp] theorem entries_retain (keep : κ → ν → Bool) (m : HashMap κ ν) :
    (m.retain keep).entries = m.entries.filter fun entry => keep entry.1 entry.2 := rfl

theorem retain_retain (keep keep' : κ → ν → Bool) (m : HashMap κ ν) :
    (m.retain keep).retain keep' = m.retain fun k x => keep k x && keep' k x := by
  apply AList.ext
  simp [List.filter_filter, Bool.and_comm]

theorem keysWhere_nodup (select : ν → Bool) (m : HashMap κ ν) : (m.keysWhere select).Nodup := by
  refine List.Pairwise.filterMap _ ?_ (List.nodupKeys_iff_pairwise.mp m.nodupKeys)
  intro entry entry' ne k selected k' selected'
  split_ifs at selected selected'
  cases selected
  cases selected'
  exact ne

variable [DecidableEq κ]

/-- `lookup` reads an entry exactly when the entry is in the list. -/
theorem lookup_eq_some_iff {m : HashMap κ ν} {k : κ} {x : ν} :
    m.lookup k = some x ↔ ⟨k, x⟩ ∈ m.entries := AList.mem_lookup_iff

theorem mem_keysWhere {select : ν → Bool} {m : HashMap κ ν} {k : κ} :
    k ∈ m.keysWhere select ↔ ∃ x, m.lookup k = some x ∧ select x = true := by
  simp only [keysWhere, List.mem_filterMap, lookup_eq_some_iff]
  constructor
  · rintro ⟨⟨k', x⟩, mem, value⟩
    split_ifs at value with selected
    obtain rfl := Option.some.inj value
    exact ⟨x, mem, selected⟩
  · rintro ⟨x, mem, selected⟩
    exact ⟨⟨k, x⟩, mem, if_pos selected⟩

theorem lookup_retain (keep : κ → ν → Bool) (m : HashMap κ ν) (k : κ) :
    (m.retain keep).lookup k = (m.lookup k).filter (keep k) := by
  apply Option.ext
  intro x
  simp [lookup_eq_some_iff, Option.filter_eq_some_iff]

theorem lookup_retain_eq_some {keep : κ → ν → Bool} {m : HashMap κ ν} {k : κ} {x : ν} :
    (m.retain keep).lookup k = some x ↔ m.lookup k = some x ∧ keep k x = true := by
  rw [lookup_retain, Option.filter_eq_some_iff]

@[simp] theorem lookup_mapValues (f : κ → ν → ν) (m : HashMap κ ν) (k : κ) :
    (m.mapValues f).lookup k = (m.lookup k).map (f k) := by
  apply Option.ext
  intro x
  simp only [lookup_eq_some_iff, mapValues, List.mem_map, Sigma.mk.injEq, Option.map_eq_some_iff]
  constructor
  · rintro ⟨⟨k', y⟩, mem, rfl, eq⟩
    exact ⟨y, mem, eq_of_heq eq⟩
  · rintro ⟨y, mem, rfl⟩
    exact ⟨⟨k, y⟩, mem, rfl, HEq.rfl⟩

/-- The items a walk over the map collects for one key are those of its value. -/
theorem flatMap_entries_filter {α : Type*} (m : HashMap κ ν) (items : κ → ν → List α) (k : κ) :
    ((m.entries.flatMap fun entry => (items entry.1 entry.2).map (Prod.mk entry.1)).filter
      fun item => item.1 = k).map Prod.snd = ((m.lookup k).map (items k)).getD [] := by
  have nodup := m.nodupKeys
  show _ = ((m.entries.dlookup k).map (items k)).getD []
  revert nodup
  induction m.entries with
  | nil => simp
  | cons entry rest ih =>
      intro nodup
      rw [List.nodupKeys_cons] at nodup
      obtain ⟨k', x⟩ := entry
      have rest' := ih nodup.2
      rw [List.flatMap_cons, List.filter_append, List.map_append, rest']
      by_cases same : k' = k
      · subst same
        have absent : rest.dlookup k' = none := List.dlookup_eq_none.mpr nodup.1
        simp [absent, List.filter_map, Function.comp_def]
      · have none : ((items k' x).map (Prod.mk k')).filter (fun item => item.1 = k) = [] := by
          simp [List.filter_eq_nil_iff, same]
        rw [none, List.dlookup_cons_ne _ _ (fun h => same h.symm)]
        rfl

/-- `entry(key).or_default()`: the value at the key, or the default. -/
def getOrDefault [Inhabited ν] (m : HashMap κ ν) (k : κ) : ν := (m.lookup k).getD default

theorem getOrDefault_mapValues [Inhabited ν] {f : κ → ν → ν} (m : HashMap κ ν) (k : κ)
    (keeps : f k default = default) : (m.mapValues f).getOrDefault k = f k (m.getOrDefault k) := by
  unfold getOrDefault
  rw [lookup_mapValues]
  cases m.lookup k with
  | none => exact keeps.symm
  | some x => rfl

theorem mapValues_insert (f : κ → ν → ν) (m : HashMap κ ν) (k : κ) (x : ν) :
    mapValues f (m.insert k x) = (m.mapValues f).insert k (f k x) := by
  apply AList.ext
  simp only [mapValues, AList.entries_insert, List.map_cons, List.kerase, List.eraseP_map]
  rfl

/-- The sum of a weight over the values. -/
def sum (weight : ν → ℕ) (m : HashMap κ ν) : ℕ :=
  (m.entries.map fun entry => weight entry.2).sum

/-- What was at the key is exchanged for the new value. -/
theorem sum_insert (weight : ν → ℕ) (m : HashMap κ ν) (k : κ) (x : ν) :
    sum weight (m.insert k x) + ((m.lookup k).map weight).getD 0 = m.sum weight + weight x := by
  unfold sum
  rw [AList.entries_insert, List.map_cons, List.sum_cons]
  cases found : m.lookup k with
  | none =>
      have absent : k ∉ m.entries.keys := AList.lookup_eq_none.mp found
      rw [List.kerase_of_notMem_keys absent, Option.map_none, Option.getD_none, Nat.add_zero,
        Nat.add_comm]
  | some y =>
      have mem : ⟨k, y⟩ ∈ m.entries := lookup_eq_some_iff.mp found
      obtain ⟨z, before, after, -, split, erased⟩ :=
        List.exists_of_kerase (List.mem_keys_of_mem mem)
      -- the key is there once
      obtain rfl : z = y := by
        have mem' : ⟨k, z⟩ ∈ m.entries := by rw [split]; simp
        exact Option.some.inj ((lookup_eq_some_iff.mpr mem').symm.trans found)
      rw [erased, split]
      simp only [List.map_append, List.map_cons, List.sum_append, List.sum_cons, Option.map_some,
        Option.getD_some]
      omega

/-- `contains_key`. -/
def containsKey (m : HashMap κ ν) (k : κ) : Bool := (m.lookup k).isSome

/-- `get_mut(key)` followed by an update in place. -/
def modify (m : HashMap κ ν) (k : κ) (f : ν → ν) : HashMap κ ν :=
  m.mapValues fun k' x => if k' = k then f x else x

theorem lookup_modify (m : HashMap κ ν) (k k' : κ) (f : ν → ν) :
    (m.modify k f).lookup k' = (m.lookup k').map fun x => if k' = k then f x else x :=
  lookup_mapValues _ m k'

theorem lookup_insert_eq (m : HashMap κ ν) (k k' : κ) (x : ν) :
    (m.insert k x).lookup k' = if k' = k then some x else m.lookup k' := by
  by_cases same : k' = k
  · subst same
    simp
  · rw [AList.lookup_insert_ne same, if_neg same]

theorem lookup_erase_eq (m : HashMap κ ν) (k k' : κ) :
    (m.erase k).lookup k' = if k' = k then none else m.lookup k' := by
  by_cases same : k' = k
  · subst same
    simp
  · rw [AList.lookup_erase_ne same, if_neg same]

theorem len_insert_of_lookup_eq_none {m : HashMap κ ν} {k : κ} {x : ν}
    (absent : m.lookup k = none) : len (m.insert k x) = m.len + 1 := by
  rw [len, AList.entries_insert_of_notMem (AList.lookup_eq_none.mp absent)]
  rfl

end HashMap

/-- The order in which one walk over hash maps meets the entries: a permutation
of them, about which nothing else is known. -/
structure IterationOrder (α : Type u) where
  /-- The entries in the order met. -/
  arrange : List α → List α
  /-- Every entry is met exactly once. -/
  arrange_perm : ∀ entries, (arrange entries).Perm entries

namespace IterationOrder

variable {α : Type u}

instance : Inhabited (IterationOrder α) := ⟨⟨id, fun _ => List.Perm.refl _⟩⟩

@[simp] theorem mem_arrange (order : IterationOrder α) {a : α} {entries : List α} :
    a ∈ order.arrange entries ↔ a ∈ entries := (order.arrange_perm entries).mem_iff

end IterationOrder

/-- A finite map from `κ` to `ν` that is walked in the order of the keys. -/
structure BTreeMap (κ : Type u) (ν : Type v) [LinearOrder κ] where
  entries : List (κ × ν)
  sorted : entries.Pairwise fun first second => first.1 < second.1

namespace BTreeMap

variable {κ : Type u} {ν : Type v} [LinearOrder κ] {m m' : BTreeMap κ ν} {k k' : κ} {x y : ν}

instance : EmptyCollection (BTreeMap κ ν) := ⟨⟨[], .nil⟩⟩

instance : Inhabited (BTreeMap κ ν) := ⟨∅⟩

@[ext] theorem ext (same : m.entries = m'.entries) : m = m' := by
  cases m
  cases m'
  congr

def get (m : BTreeMap κ ν) (k : κ) : Option ν :=
  (m.entries.find? fun entry => entry.1 = k).map Prod.snd

def containsKey (m : BTreeMap κ ν) (k : κ) : Bool := (m.get k).isSome

def keys (m : BTreeMap κ ν) : List κ := m.entries.map Prod.fst

def values (m : BTreeMap κ ν) : List ν := m.entries.map Prod.snd

/-- The entries before a key. -/
def below (m : BTreeMap κ ν) (k : κ) : List (κ × ν) := m.entries.filter fun entry => entry.1 < k

/-- The entries after a key. -/
def above (m : BTreeMap κ ν) (k : κ) : List (κ × ν) := m.entries.filter fun entry => k < entry.1

theorem mem_below {entry : κ × ν} : entry ∈ m.below k ↔ entry ∈ m.entries ∧ entry.1 < k := by
  simp [below]

theorem mem_above {entry : κ × ν} : entry ∈ m.above k ↔ entry ∈ m.entries ∧ k < entry.1 := by
  simp [above]

def insert (m : BTreeMap κ ν) (k : κ) (x : ν) : BTreeMap κ ν where
  entries := m.below k ++ (k, x) :: m.above k
  sorted := by
    rw [List.pairwise_append, List.pairwise_cons]
    refine ⟨m.sorted.filter _, ⟨fun entry mem => (mem_above.mp mem).2, m.sorted.filter _⟩, ?_⟩
    intro first memBelow second memAbove
    rcases List.mem_cons.mp memAbove with rfl | memAbove
    · exact (mem_below.mp memBelow).2
    · exact (mem_below.mp memBelow).2.trans (mem_above.mp memAbove).2

def remove (m : BTreeMap κ ν) (k : κ) : BTreeMap κ ν where
  entries := m.below k ++ m.above k
  sorted := by
    rw [List.pairwise_append]
    refine ⟨m.sorted.filter _, m.sorted.filter _, fun first memBelow second memAbove => ?_⟩
    exact (mem_below.mp memBelow).2.trans (mem_above.mp memAbove).2

/-- `get` finds an entry exactly when the entry is in the list. -/
theorem get_eq_some_iff : m.get k = some x ↔ (k, x) ∈ m.entries := by
  have sorted := m.sorted
  unfold get
  revert sorted
  induction m.entries with
  | nil => simp
  | cons entry rest ih =>
      intro sorted
      obtain ⟨k', y⟩ := entry
      obtain ⟨above, sorted⟩ := List.pairwise_cons.mp sorted
      by_cases same : k' = k
      · subst same
        have once : (k', x) ∉ rest := fun mem => lt_irrefl k' (above (k', x) mem)
        simp [once, eq_comm]
      · simp [same, Ne.symm same, ih sorted]

@[simp] theorem get_empty : (∅ : BTreeMap κ ν).get k = none := rfl

theorem get_insert : (m.insert k x).get k' = if k' = k then some x else m.get k' := by
  apply Option.ext
  intro y
  rw [get_eq_some_iff]
  by_cases same : k' = k
  · subst same
    simp [insert, mem_below, mem_above, eq_comm]
  · rw [if_neg same, get_eq_some_iff]
    simp only [insert, List.mem_append, List.mem_cons, mem_below, mem_above, Prod.mk.injEq, same,
      false_and, false_or, ← and_or_left, lt_or_lt_iff_ne, ne_eq, not_false_eq_true, and_true]

theorem get_remove : (m.remove k).get k' = if k' = k then none else m.get k' := by
  apply Option.ext
  intro y
  rw [get_eq_some_iff]
  by_cases same : k' = k
  · simp [remove, mem_below, mem_above, same]
  · rw [if_neg same, get_eq_some_iff]
    simp only [remove, List.mem_append, mem_below, mem_above, same, ← and_or_left,
      lt_or_lt_iff_ne, ne_eq, not_false_eq_true, and_true]

theorem entries_nodup (m : BTreeMap κ ν) : m.entries.Nodup :=
  m.sorted.imp fun lt same => lt.ne (congrArg Prod.fst same)

/-- A map is determined by its look-ups. -/
theorem ext_get (same : ∀ k, m.get k = m'.get k) : m = m' := by
  apply ext
  have perm : m.entries.Perm m'.entries :=
    (List.perm_ext_iff_of_nodup m.entries_nodup m'.entries_nodup).mpr fun entry => by
      rw [← get_eq_some_iff, ← get_eq_some_iff, same]
  exact perm.eq_of_pairwise (fun _ _ _ _ lt gt => absurd lt gt.asymm) m.sorted m'.sorted

theorem mem_keys : k ∈ m.keys ↔ ∃ x, m.get k = some x := by
  simp [keys, get_eq_some_iff]

theorem keys_nodup (m : BTreeMap κ ν) : m.keys.Nodup :=
  List.pairwise_map.mpr (m.sorted.imp fun lt => lt.ne)

theorem mem_values : x ∈ m.values ↔ ∃ k, m.get k = some x := by
  simp [values, get_eq_some_iff]

/-- `collect`: a later entry for a key replaces an earlier one. -/
def ofList (entries : List (κ × ν)) : BTreeMap κ ν :=
  entries.foldl (fun m entry => m.insert entry.1 entry.2) ∅

theorem get_ofList {entries : List (κ × ν)} (nodup : (entries.map Prod.fst).Nodup) :
    (ofList entries).get k = some x ↔ (k, x) ∈ entries := by
  induction entries using List.reverseRecOn with
  | nil => simp [ofList]
  | append_singleton entries entry ih =>
      rw [List.map_append, List.nodup_append] at nodup
      obtain ⟨nodup, -, disjoint⟩ := nodup
      have last : ofList (entries ++ [entry]) = (ofList entries).insert entry.1 entry.2 := by
        simp [ofList]
      rw [last, get_insert, List.mem_append, List.mem_singleton, Prod.ext_iff]
      split_ifs with same
      · have absent : (k, x) ∉ entries := fun mem =>
          disjoint k (List.mem_map_of_mem mem) entry.1 (by simp) same
        rw [or_iff_right absent, and_iff_right same, Option.some.injEq, eq_comm]
      · simp only [ih nodup, same, false_and, or_false]

theorem entries_ofList_perm {entries : List (κ × ν)} (nodup : (entries.map Prod.fst).Nodup) :
    (ofList entries).entries.Perm entries :=
  (List.perm_ext_iff_of_nodup (entries_nodup _) nodup.of_map).mpr fun entry => by
    rw [← get_eq_some_iff, get_ofList nodup]

/-- The entries are those before a key, the one at it, and those after it. -/
theorem entries_eq (m : BTreeMap κ ν) (k : κ) :
    m.entries = m.below k ++ ((m.get k).map (Prod.mk k)).toList ++ m.above k := by
  cases found : m.get k with
  | none =>
      have same : m = m.remove k := ext_get fun k' => by
        rw [get_remove]
        split_ifs with eq
        · rw [eq, found]
        · rfl
      simpa [remove] using congrArg entries same
  | some x =>
      have same : m = m.insert k x := ext_get fun k' => by
        rw [get_insert]
        split_ifs with eq
        · rw [eq, found]
        · rfl
      simpa [insert] using congrArg entries same

/-! ### Sums -/

theorem sum_values_eq (m : BTreeMap κ ℕ) (k : κ) :
    m.values.sum = ((m.below k).map Prod.snd).sum + (m.get k).getD 0 +
      ((m.above k).map Prod.snd).sum := by
  rw [values, m.entries_eq k]
  cases m.get k <;> simp [Nat.add_assoc]

theorem sum_values_insert (m : BTreeMap κ ℕ) (k : κ) (n : ℕ) :
    (m.insert k n).values.sum + (m.get k).getD 0 = m.values.sum + n := by
  rw [m.sum_values_eq k]
  simp only [values, insert, List.map_append, List.map_cons, List.sum_append, List.sum_cons]
  omega

theorem sum_values_remove (m : BTreeMap κ ℕ) (k : κ) :
    (m.remove k).values.sum + (m.get k).getD 0 = m.values.sum := by
  rw [m.sum_values_eq k]
  simp only [values, remove, List.map_append, List.sum_append]
  omega

end BTreeMap

/-- A priority queue, as the list of its elements. -/
abbrev BinaryHeap (α : Type u) := List α

namespace BinaryHeap

variable {α : Type u}

/-- The greatest element, where `cmp` decides between two. -/
def greatest (cmp : α → α → Ordering) : α → List α → α
  | best, [] => best
  | best, x :: rest => greatest cmp (if cmp best x = .lt then x else best) rest

def push (heap : BinaryHeap α) (x : α) : BinaryHeap α := x :: heap

/-- Remove and return the greatest element. -/
def pop [DecidableEq α] (cmp : α → α → Ordering) : BinaryHeap α → Option (α × BinaryHeap α)
  | [] => none
  | x :: rest => some (greatest cmp x rest, (x :: rest).erase (greatest cmp x rest))

theorem greatest_mem (cmp : α → α → Ordering) (best : α) (rest : List α) :
    greatest cmp best rest ∈ best :: rest := by
  induction rest generalizing best with
  | nil => exact List.mem_singleton.mpr rfl
  | cons x rest ih =>
      have mem := ih (if cmp best x = .lt then x else best)
      unfold greatest
      split_ifs at mem ⊢
      · exact List.mem_cons_of_mem _ mem
      · rcases List.mem_cons.mp mem with same | mem
        · rw [same]
          exact List.mem_cons_self
        · exact List.mem_cons_of_mem _ (List.mem_cons_of_mem _ mem)

/-- Where the comparison orders elements against `key`, the greatest element has
the least key. -/
theorem key_greatest_le {β : Type v} [Preorder β] {cmp : α → α → Ordering} (key : α → β)
    (best : α) (rest : List α)
    (agrees : ∀ x ∈ best :: rest, ∀ y ∈ best :: rest,
      (cmp x y = .lt → key y ≤ key x) ∧ (cmp x y ≠ .lt → key x ≤ key y)) :
    ∀ x ∈ best :: rest, key (greatest cmp best rest) ≤ key x := by
  induction rest generalizing best with
  | nil =>
      intro x mem
      rw [List.mem_singleton.mp mem]
      exact le_rfl
  | cons y rest ih =>
      have both := agrees best List.mem_cons_self y (List.mem_cons_of_mem _ List.mem_cons_self)
      unfold greatest
      split_ifs with less
      · have tail := ih y fun a ha b hb =>
          agrees a (List.mem_cons_of_mem _ ha) b (List.mem_cons_of_mem _ hb)
        intro x mem
        rcases List.mem_cons.mp mem with rfl | mem
        · exact le_trans (tail y List.mem_cons_self) (both.1 less)
        · exact tail x mem
      · have sub : ∀ a ∈ best :: rest, a ∈ best :: y :: rest := by
          intro a ha
          rcases List.mem_cons.mp ha with rfl | ha
          · exact List.mem_cons_self
          · exact List.mem_cons_of_mem _ (List.mem_cons_of_mem _ ha)
        have tail := ih best fun a ha b hb => agrees a (sub a ha) b (sub b hb)
        intro x mem
        rcases List.mem_cons.mp mem with rfl | mem
        · exact tail x List.mem_cons_self
        rcases List.mem_cons.mp mem with rfl | mem
        · exact le_trans (tail best List.mem_cons_self) (both.2 less)
        · exact tail x (List.mem_cons_of_mem _ mem)

variable [DecidableEq α] {cmp : α → α → Ordering} {heap rest : BinaryHeap α} {x : α}

theorem pop_eq_none_iff : pop cmp heap = none ↔ heap = [] := by
  cases heap <;> simp [pop]

/-- What is popped was in the heap, and the rest is the heap without it. -/
theorem mem_of_pop (popped : pop cmp heap = some (x, rest)) :
    x ∈ heap ∧ rest = heap.erase x := by
  cases heap with
  | nil => simp [pop] at popped
  | cons y tail =>
      simp only [pop, Option.some.injEq, Prod.mk.injEq] at popped
      obtain ⟨rfl, rfl⟩ := popped
      exact ⟨greatest_mem cmp y tail, rfl⟩

theorem key_le_of_pop {β : Type v} [Preorder β] (key : α → β)
    (popped : pop cmp heap = some (x, rest))
    (agrees : ∀ a ∈ heap, ∀ b ∈ heap,
      (cmp a b = .lt → key b ≤ key a) ∧ (cmp a b ≠ .lt → key a ≤ key b)) :
    ∀ y ∈ heap, key x ≤ key y := by
  cases heap with
  | nil => simp [pop] at popped
  | cons y tail =>
      simp only [pop, Option.some.injEq, Prod.mk.injEq] at popped
      obtain ⟨rfl, rfl⟩ := popped
      exact key_greatest_le key y tail agrees

end BinaryHeap

/-! ### Sorting -/

section SortBy

variable {α : Type u} {cmp : α → α → Ordering} {items : List α}

/-- `slice::sort_by`: elements that compare equal keep their order. -/
def sortBy (cmp : α → α → Ordering) (items : List α) : List α :=
  items.insertionSort fun a b => (cmp a b).isLE = true

theorem mem_sortBy (cmp : α → α → Ordering) {a : α} : a ∈ sortBy cmp items ↔ a ∈ items :=
  List.mem_insertionSort _

/-- An order pulled back along a function. -/
theorem transCmp_on {β : Type v} (cmp : α → α → Ordering) [Std.TransCmp cmp] (f : β → α) :
    Std.TransCmp fun a b => cmp (f a) (f b) where
  eq_swap := Std.OrientedCmp.eq_swap
  isLE_trans := Std.TransCmp.isLE_trans

/-- `Ordering::then_with`. -/
theorem transCmp_then {first second : α → α → Ordering} (_ : Std.TransCmp first)
    (_ : Std.TransCmp second) : Std.TransCmp fun a b => (first a b).then (second a b) :=
  inferInstanceAs (Std.TransCmp (compareLex first second))

theorem perm_sortBy (cmp : α → α → Ordering) (items : List α) : (sortBy cmp items).Perm items :=
  List.perm_insertionSort _ items

theorem pairwise_sortBy [Std.TransCmp cmp] (items : List α) :
    (sortBy cmp items).Pairwise fun a b => (cmp a b).isLE = true := by
  have : Std.Total fun a b => (cmp a b).isLE = true :=
    ⟨fun a b => by
      rw [(Std.OrientedCmp.eq_swap : cmp b a = (cmp a b).swap)]
      cases cmp a b <;> simp⟩
  have : IsTrans α fun a b => (cmp a b).isLE = true :=
    ⟨fun _ _ _ => Std.TransCmp.isLE_trans⟩
  exact List.pairwise_insertionSort _ items

/-- Where no two of the elements compare equal, sorting forgets the order it is given. -/
theorem sortBy_eq_of_perm_of_apart [Std.TransCmp cmp] {items' : List α}
    (apart : ∀ a ∈ items, ∀ b ∈ items, cmp a b = .eq → a = b) (perm : items.Perm items') :
    sortBy cmp items = sortBy cmp items' := by
  have same := (perm_sortBy cmp items).trans (perm.trans (perm_sortBy cmp items').symm)
  refine same.eq_of_pairwise (fun a b memA memB le ge => ?_) (pairwise_sortBy items)
    (pairwise_sortBy items')
  exact apart a ((mem_sortBy cmp).mp memA) b (perm.mem_iff.mpr ((mem_sortBy cmp).mp memB))
    (Std.OrientedCmp.isLE_antisymm le ge)

/-- Where only equal elements compare equal, sorting forgets the order it is given. -/
theorem sortBy_eq_of_perm [Std.TransCmp cmp] [Std.LawfulEqCmp cmp] {items' : List α}
    (perm : items.Perm items') : sortBy cmp items = sortBy cmp items' :=
  sortBy_eq_of_perm_of_apart (fun _ _ _ _ => Std.LawfulEqCmp.eq_of_compare) perm

theorem head?_sortBy_eq_none_iff : (sortBy cmp items).head? = none ↔ items = [] := by
  rw [List.head?_eq_none_iff, ← List.length_eq_zero_iff, (perm_sortBy cmp items).length_eq,
    List.length_eq_zero_iff]

/-- What comes first is the least element. -/
theorem head?_sortBy_eq_some_iff [Std.TransCmp cmp] [Std.LawfulEqCmp cmp] {least : α} :
    (sortBy cmp items).head? = some least ↔
      least ∈ items ∧ ∀ a ∈ items, (cmp least a).isLE = true := by
  have sorted : (sortBy cmp items).Pairwise fun a b => (cmp a b).isLE = true :=
    pairwise_sortBy items
  constructor
  · intro first
    obtain ⟨rest, eq⟩ := List.head?_eq_some_iff.mp first
    rw [eq, List.pairwise_cons] at sorted
    refine ⟨(mem_sortBy cmp).mp (eq ▸ List.mem_cons_self), fun a mem => ?_⟩
    rw [← mem_sortBy cmp, eq] at mem
    rcases List.mem_cons.mp mem with rfl | mem
    · exact Ordering.isLE_of_eq_eq Std.ReflCmp.compare_self
    · exact sorted.1 a mem
  · rintro ⟨mem, below⟩
    cases eq : sortBy cmp items with
    | nil => exact absurd ((mem_sortBy cmp).mpr mem) (by simp [eq])
    | cons first rest =>
        rw [eq, List.pairwise_cons] at sorted
        have le := below first ((mem_sortBy cmp).mp (eq ▸ List.mem_cons_self))
        rw [← mem_sortBy cmp, eq] at mem
        rcases List.mem_cons.mp mem with rfl | mem
        · rfl
        · -- they are below each other
          have ge := sorted.1 least mem
          rw [Std.LawfulEqCmp.eq_of_compare (Std.OrientedCmp.isLE_antisymm le ge)]
          rfl

/-- One more element comes first, or it makes no difference to what does. -/
theorem head?_sortBy_cons [Std.TransCmp cmp] [Std.LawfulEqCmp cmp] (a : α) (items : List α) :
    (sortBy cmp (a :: items)).head? = (sortBy cmp items).head? ∨
      (sortBy cmp (a :: items)).head? = some a := by
  cases first : (sortBy cmp (a :: items)).head? with
  | none => exact absurd (head?_sortBy_eq_none_iff.mp first) (List.cons_ne_nil a items)
  | some least =>
      obtain ⟨mem, below⟩ := head?_sortBy_eq_some_iff.mp first
      rcases List.mem_cons.mp mem with rfl | mem
      · exact Or.inr rfl
      · refine Or.inl (head?_sortBy_eq_some_iff.mpr ⟨mem, fun b memB => ?_⟩).symm
        exact below b (List.mem_cons_of_mem a memB)

theorem key_head_sortBy_le {β : Type v} [LinearOrder β] {key : α → β}
    (agrees : ∀ a b, (cmp a b).isLE = true ↔ key a ≤ key b) {least : α} {rest : List α}
    (sorted : sortBy cmp items = least :: rest) {a : α} (mem : a ∈ items) : key least ≤ key a := by
  have : Std.Total fun a b => (cmp a b).isLE = true :=
    ⟨fun a b => by simpa only [agrees] using le_total (key a) (key b)⟩
  have : IsTrans α fun a b => (cmp a b).isLE = true :=
    ⟨fun a b c => by simpa only [agrees] using le_trans⟩
  have pairwise := List.pairwise_insertionSort (fun a b => (cmp a b).isLE = true) items
  rw [← sortBy, sorted] at pairwise
  rw [← mem_sortBy cmp, sorted] at mem
  rcases List.mem_cons.mp mem with rfl | mem
  · exact le_rfl
  · exact (agrees _ _).mp (List.rel_of_pairwise_cons pairwise mem)

end SortBy

/-! ### Looking elements up by a comparison -/

section Matching

variable {α : Type u}

variable {same : α → α → Bool}

/-- How often an element is found: once for each key it is found by. -/
theorem count_flatMap_filter {κ : Type*} [DecidableEq α] (found : κ → α → Bool) (keys : List κ)
    (items : List α) (a : α) :
    (keys.flatMap fun key => items.filter (found key)).count a =
      keys.countP (found · a) * items.count a := by
  induction keys with
  | nil => simp
  | cons key keys ih =>
      rw [List.flatMap_cons, List.count_append, ih, List.countP_cons]
      cases hit : found key a with
      | true => rw [List.count_filter hit, if_pos rfl, Nat.add_mul, Nat.one_mul, Nat.add_comm]
      | false =>
          rw [List.count_eq_zero.mpr fun mem => by simp [hit] at mem, Nat.zero_add]
          simp

/-- Elements that are each found by one key are found once each, and all of them. -/
theorem flatMap_filter_perm {κ : Type*} {found : κ → α → Bool} {keys : List κ} {items : List α}
    (once : ∀ a ∈ items, keys.countP (found · a) = 1) :
    (keys.flatMap fun key => items.filter (found key)).Perm items := by
  classical
  refine List.perm_iff_count.mpr fun a => ?_
  rw [count_flatMap_filter]
  by_cases mem : a ∈ items
  · rw [once a mem, Nat.one_mul]
  · rw [List.count_eq_zero.mpr mem, Nat.mul_zero]

/-- Elements looked up by a comparison with each other are found once each, and all of
them, exactly when each compares equal to itself and to no other. -/
theorem flatMap_filter_perm_iff (symm : ∀ a b, same a b = same b a)
    (trans : ∀ a b c, same a b = true → same b c = true → same a c = true) {items : List α} :
    (items.flatMap fun a => items.filter (same a)).Perm items ↔
      (∀ a ∈ items, same a a = true) ∧ items.Pairwise fun a b => same a b = false := by
  classical
  constructor
  · intro perm
    have once : ∀ a ∈ items, items.countP (same a) = 1 := by
      intro a mem
      have counted := (count_flatMap_filter same items items a).symm.trans (perm.count_eq a)
      rw [funext fun b => symm b a] at counted
      exact Nat.eq_of_mul_eq_mul_right (List.count_pos_iff.mpr mem) (by rw [counted, Nat.one_mul])
    constructor
    · intro a mem
      obtain ⟨b, -, equal⟩ :=
        List.countP_pos_iff.mp (Nat.lt_of_lt_of_eq Nat.one_pos (once a mem).symm)
      exact trans a b a equal (symm a b ▸ equal)
    · refine List.pairwise_iff_forall_sublist.mpr fun {a b} sublist => ?_
      have mem : a ∈ items := sublist.subset List.mem_cons_self
      by_contra equal
      rw [Bool.not_eq_false] at equal
      have twice := sublist.countP_le (p := same a)
      rw [once a mem, List.countP_cons, List.countP_singleton, if_pos equal,
        if_pos (trans a b a equal (symm a b ▸ equal))] at twice
      exact absurd twice (by decide)
  · rintro ⟨refl, apart⟩
    have alone : ∀ a ∈ items, items.filter (same a) = [a] := by
      intro a mem
      obtain ⟨before, after, rfl⟩ := List.mem_iff_append.mp mem
      obtain ⟨-, later, earlier⟩ := List.pairwise_append.mp apart
      have none_before : before.filter (same a) = [] :=
        List.filter_eq_nil_iff.mpr fun b found => by
          simp [symm a b, earlier b found a List.mem_cons_self]
      have none_after : after.filter (same a) = [] :=
        List.filter_eq_nil_iff.mpr fun b found => by simp [List.rel_of_pairwise_cons later found]
      simp [none_before, none_after, refl a mem]
    rw [List.flatMap_congr alone, List.flatMap_singleton']

end Matching

end TrustRouter
