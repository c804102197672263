import Mathlib.Tactic
import Mathlib.Data.List.AList

/-!
# Finite tables

Association lists with distinct keys (`AList` of Mathlib, at a constant value type) stand for
the hash maps of a program.  This file adds what programs do to such maps besides lookup,
insertion and removal of one key: keep the entries that meet a predicate, change the values, insert
only when a key is free, and add up a quantity over all entries.

* `Table.lookup_filter`, `Table.lookup_mapVal`, `Table.lookup_update`, `Table.lookup_emplace` — the
  changed table, entry by entry.
* `Table.total_insert`, `Table.total_erase`, `Table.total_le` — how totals move.
-/

set_option autoImplicit false

namespace LocalMediaTransfer.Lib

/-- A finite map from `κ` to `ν`. -/
abbrev Table (κ ν : Type) := AList (fun _ : κ => ν)

namespace Table

variable {κ ν : Type}

/-- The entries that meet `p`. -/
def filter (p : κ → ν → Bool) (m : Table κ ν) : Table κ ν :=
  ⟨m.entries.filter fun e => p e.1 e.2, m.nodupKeys.sublist List.filter_sublist⟩

/-- Change every value. -/
def mapVal (f : κ → ν → ν) (m : Table κ ν) : Table κ ν :=
  ⟨m.entries.map fun e => ⟨e.1, f e.1 e.2⟩, by
    have h := m.nodupKeys
    simpa only [List.NodupKeys, List.keys, List.map_map, Function.comp_def] using h⟩

/-- The sum of `f` over the entries. -/
def total (f : κ → ν → Nat) (m : Table κ ν) : Nat := (m.entries.map fun e => f e.1 e.2).sum

theorem total_le {f g : κ → ν → Nat} {m : Table κ ν}
    (h : ∀ e ∈ m.entries, f e.1 e.2 ≤ g e.1 e.2) : total f m ≤ total g m :=
  List.sum_le_sum fun e he => h e he

theorem total_congr {f g : κ → ν → Nat} {m : Table κ ν}
    (h : ∀ e ∈ m.entries, f e.1 e.2 = g e.1 e.2) : total f m = total g m := by
  unfold total
  rw [List.map_congr_left fun e he => h e he]

variable [DecidableEq κ]

theorem lookup_eq_some_iff {m : Table κ ν} {k : κ} {v : ν} :
    m.lookup k = some v ↔ (⟨k, v⟩ : Sigma fun _ : κ => ν) ∈ m.entries :=
  AList.mem_lookup_iff

theorem lookup_filter (p : κ → ν → Bool) (m : Table κ ν) (k : κ) :
    (filter p m).lookup k = (m.lookup k).filter (p k) := by
  ext v
  rw [lookup_eq_some_iff, Option.filter_eq_some_iff, lookup_eq_some_iff]
  simp [filter]

theorem lookup_mapVal (f : κ → ν → ν) (m : Table κ ν) (k : κ) :
    (mapVal f m).lookup k = (m.lookup k).map (f k) := by
  ext v
  rw [lookup_eq_some_iff, Option.map_eq_some_iff]
  constructor
  · intro h
    obtain ⟨⟨k', u⟩, hu, he⟩ := List.mem_map.mp h
    cases he
    exact ⟨u, lookup_eq_some_iff.mpr hu, rfl⟩
  · rintro ⟨u, hu, rfl⟩
    exact List.mem_map.mpr ⟨⟨k, u⟩, lookup_eq_some_iff.mp hu, rfl⟩

/-- Assign to a key that is there; nothing happens when it is not. -/
def update (key : κ) (value : ν) (m : Table κ ν) : Table κ ν :=
  mapVal (fun k old => if k = key then value else old) m

theorem lookup_update (key : κ) (value : ν) (m : Table κ ν) (k : κ) :
    (update key value m).lookup k =
      if k = key then (m.lookup k).map fun _ => value else m.lookup k := by
  unfold update
  rw [lookup_mapVal]
  split
  · rfl
  · exact Option.map_id'

/-- An assignment that filtering does not see is lost under the next one. -/
theorem update_filter_update {p : κ → ν → Bool} {key : κ} {u v w : ν} {m : Table κ ν}
    (hkey : m.lookup key = some w) (hp : p key u = p key w) :
    update key v (filter p (update key u m)) = update key v (filter p m) := by
  apply AList.ext
  simp only [update, mapVal, filter, List.filter_map, List.map_map, Function.comp_def]
  have hfilter : (m.entries.filter fun e => p e.1 (if e.1 = key then u else e.2)) =
      m.entries.filter fun e => p e.1 e.2 := by
    apply List.filter_congr
    rintro ⟨k, old⟩ he
    by_cases hk : k = key
    · subst hk
      have hold : old = w := Option.some.inj ((lookup_eq_some_iff.mpr he).symm.trans hkey)
      simp [hold, hp]
    · simp [hk]
  rw [hfilter]
  apply List.map_congr_left
  rintro ⟨k, old⟩ -
  by_cases hk : k = key <;> simp [hk]

/-- Insert a value unless the key is taken. -/
def emplace (key : κ) (value : ν) (m : Table κ ν) : Table κ ν :=
  if (m.lookup key).isSome then m else m.insert key value

theorem lookup_emplace (key : κ) (value : ν) (m : Table κ ν) (k : κ) :
    (emplace key value m).lookup k =
      if k = key then some ((m.lookup k).getD value) else m.lookup k := by
  unfold emplace
  split
  · rename_i hk
    split
    · rename_i heq
      obtain ⟨v, hv⟩ := Option.isSome_iff_exists.mp hk
      rw [heq, hv]
      rfl
    · rfl
  · rename_i hk
    split
    · rename_i heq
      rw [Option.not_isSome_iff_eq_none] at hk
      rw [heq, AList.lookup_insert, hk]
      rfl
    · rename_i hne
      exact AList.lookup_insert_ne hne

theorem total_insert {f : κ → ν → Nat} {m : Table κ ν} {k : κ} {v : ν}
    (h : m.lookup k = none) : total f (m.insert k v) = f k v + total f m := by
  unfold total
  rw [AList.entries_insert_of_notMem (AList.lookup_eq_none.mp h)]
  simp

theorem total_erase_le (f : κ → ν → Nat) (m : Table κ ν) (k : κ) :
    total f (m.erase k) ≤ total f m :=
  List.Sublist.sum_le_sum ((List.kerase_sublist k m.entries).map _) fun _ _ => Nat.zero_le _

/-- A table without a key is empty. -/
theorem eq_empty {m : Table κ ν} (h : ∀ k, m.lookup k = none) : m = ∅ := by
  apply AList.ext
  rw [AList.empty_entries, List.eq_nil_iff_forall_not_mem]
  rintro ⟨k, v⟩ hmem
  have hsome : m.lookup k = some v := lookup_eq_some_iff.mpr hmem
  rw [h k] at hsome
  cases hsome

/-- An entry that is erased leaves the total. -/
theorem total_erase {f : κ → ν → Nat} {m : Table κ ν} {k : κ} {v : ν} (h : m.lookup k = some v) :
    f k v + total f (m.erase k) = total f m := by
  have hmem : (⟨k, v⟩ : Sigma fun _ : κ => ν) ∈ m.entries := lookup_eq_some_iff.mp h
  obtain ⟨w, l₁, l₂, hnotin, hentries, herase⟩ :=
    List.exists_of_kerase (List.mem_keys_of_mem hmem)
  have hw : w = v := by
    have hwmem : (⟨k, w⟩ : Sigma fun _ : κ => ν) ∈ m.entries := by
      rw [hentries]
      exact List.mem_append_right _ List.mem_cons_self
    exact Option.some.inj ((lookup_eq_some_iff.mpr hwmem).symm.trans h)
  unfold total
  rw [show (m.erase k).entries = List.kerase k m.entries from rfl, herase, hentries, hw]
  simp only [List.map_append, List.sum_append, List.map_cons, List.sum_cons]
  omega

theorem total_erase_of_none {f : κ → ν → Nat} {m : Table κ ν} {k : κ} (h : m.lookup k = none) :
    total f (m.erase k) = total f m := by
  unfold total
  rw [show (m.erase k).entries = List.kerase k m.entries from rfl,
    List.kerase_of_notMem_keys (AList.lookup_eq_none.mp h)]

/-- An assignment puts the new entry in the place of what was under the key. -/
theorem total_insert_eq (f : κ → ν → Nat) (m : Table κ ν) (k : κ) (v : ν) :
    total f (m.insert k v) = f k v + total f (m.erase k) := by
  unfold total
  rw [AList.entries_insert, List.map_cons, List.sum_cons]
  rfl

end Table

end LocalMediaTransfer.Lib
