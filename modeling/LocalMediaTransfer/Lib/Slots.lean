import LocalMediaTransfer.Lib.Table

/-!
# Tables with a bounded number of active entries

A table of requests keeps decided entries for a while next to those that are still active.  Three
limits hold at once: on the active entries, on the active entries of one owner, and on the size of
the table.

* `Table.countP_le_of_lookup` — counting along lookups.
* `Slots` — the three limits; `Below` — a table that has nothing new.
* `Slots.below`, `Slots.perm`, `Slots.emplace` — the limits are kept.
-/

set_option autoImplicit false

namespace LocalMediaTransfer.Lib

variable {κ ν γ : Type} [DecidableEq κ]

/-- What every lookup finds in one table, it finds in the other: there are no more such entries. -/
theorem Table.countP_le_of_lookup {m n : Table κ ν} {p q : ν → Bool}
    (h : ∀ k v, m.lookup k = some v → p v = true → ∃ w, n.lookup k = some w ∧ q w = true) :
    m.entries.countP (fun e => p e.2) ≤ n.entries.countP (fun e => q e.2) := by
  rw [List.countP_eq_length_filter, List.countP_eq_length_filter]
  have hkeys : ((m.entries.filter fun e => p e.2).map (·.1)).Nodup :=
    List.Nodup.sublist (List.filter_sublist.map _) m.nodupKeys
  have hsub : (m.entries.filter fun e => p e.2).map (·.1) ⊆
      (n.entries.filter fun e => q e.2).map (·.1) := by
    intro k hk
    obtain ⟨e, he, rfl⟩ := List.mem_map.mp hk
    obtain ⟨hmem, hp⟩ := List.mem_filter.mp he
    obtain ⟨w, hw, hq⟩ := h e.1 e.2 (Table.lookup_eq_some_iff.mpr hmem) hp
    refine List.mem_map.mpr ⟨⟨e.1, w⟩, List.mem_filter.mpr ⟨?_, hq⟩, rfl⟩
    exact Table.lookup_eq_some_iff.mp hw
  have hlength := (List.subperm_of_subset hkeys hsub).length_le
  rwa [List.length_map, List.length_map] at hlength

theorem Table.length_le_of_lookup {m n : Table κ ν}
    (h : ∀ k v, m.lookup k = some v → ∃ w, n.lookup k = some w) :
    m.entries.length ≤ n.entries.length := by
  have hcount := Table.countP_le_of_lookup (m := m) (n := n) (p := fun _ => true)
    (q := fun _ => true)
    fun k v hv _ => (h k v hv).imp fun w hw => ⟨hw, rfl⟩
  simpa using hcount

/-- At most `limit` entries are live, no two `sole` entries have one owner, and the table has at
most `size` entries. -/
structure Slots (live sole : ν → Bool) (owner : ν → γ) (limit size : Nat)
    (m : Table κ ν) : Prop where
  count : m.entries.countP (fun e => live e.2) ≤ limit
  one : ∀ i j v w, m.lookup i = some v → m.lookup j = some w → sole v = true → sole w = true →
    owner v = owner w → i = j
  length : m.entries.length ≤ size

/-- Every entry was there before, with the same owner, and was live or sole if it is now. -/
def Below (live sole : ν → Bool) (owner : ν → γ) (m n : Table κ ν) : Prop :=
  ∀ k v, m.lookup k = some v → ∃ w, n.lookup k = some w ∧ owner v = owner w ∧
    (live v = true → live w = true) ∧ (sole v = true → sole w = true)

variable {live sole : ν → Bool} {owner : ν → γ} {limit size : Nat} {m n l : Table κ ν}

theorem Below.refl : Below live sole owner m m :=
  fun _ v hv => ⟨v, hv, rfl, fun h => h, fun h => h⟩

theorem Below.trans (h₁ : Below live sole owner m n) (h₂ : Below live sole owner n l) :
    Below live sole owner m l := by
  intro k v hv
  obtain ⟨w, hw, howner, hlive, hsole⟩ := h₁ k v hv
  obtain ⟨u, hu, howner', hlive', hsole'⟩ := h₂ k w hw
  exact ⟨u, hu, howner.trans howner', fun h => hlive' (hlive h), fun h => hsole' (hsole h)⟩

/-- Removing entries adds nothing. -/
theorem Below.of_lookup (h : ∀ k, m.lookup k = n.lookup k ∨ m.lookup k = none) :
    Below live sole owner m n := by
  intro k v hv
  rcases h k with hk | hk
  · exact ⟨v, hk.symm.trans hv, rfl, fun h => h, fun h => h⟩
  · rw [hk] at hv
    cases hv

theorem Below.filter (p : κ → ν → Bool) : Below live sole owner (m.filter p) m := by
  intro k v hv
  rw [Table.lookup_filter, Option.filter_eq_some_iff] at hv
  exact ⟨v, hv.1, rfl, fun h => h, fun h => h⟩

theorem Below.update {key : κ} {value : ν}
    (h : ∀ old, m.lookup key = some old → owner value = owner old ∧
      (live value = true → live old = true) ∧ (sole value = true → sole old = true)) :
    Below live sole owner (m.update key value) m := by
  intro k v hv
  rw [Table.lookup_update] at hv
  split at hv
  · rename_i hk
    subst hk
    obtain ⟨old, hold, rfl⟩ := Option.map_eq_some_iff.mp hv
    exact ⟨old, hold, h old hold⟩
  · exact ⟨v, hv, rfl, fun h => h, fun h => h⟩

theorem Below.mapVal {f : κ → ν → ν}
    (h : ∀ k v, owner (f k v) = owner v ∧ (live (f k v) = true → live v = true) ∧
      (sole (f k v) = true → sole v = true)) :
    Below live sole owner (m.mapVal f) m := by
  intro k v hv
  rw [Table.lookup_mapVal] at hv
  obtain ⟨old, hold, rfl⟩ := Option.map_eq_some_iff.mp hv
  exact ⟨old, hold, h k old⟩

theorem Below.count (h : Below live sole owner m n) :
    m.entries.countP (fun e => live e.2) ≤ n.entries.countP (fun e => live e.2) := by
  apply Table.countP_le_of_lookup
  intro k v hv hlive
  obtain ⟨w, hw, -, hw', -⟩ := h k v hv
  exact ⟨w, hw, hw' hlive⟩

/-- **Limits are kept by tables that have nothing new.** -/
theorem Slots.below (h : Slots live sole owner limit size n) (hm : Below live sole owner m n) :
    Slots live sole owner limit size m where
  count := le_trans hm.count h.count
  one := by
    intro i j v w hv hw hsv hsw howner
    obtain ⟨v', hv', hov, -, hsv'⟩ := hm i v hv
    obtain ⟨w', hw', how, -, hsw'⟩ := hm j w hw
    exact h.one i j v' w' hv' hw' (hsv' hsv) (hsw' hsw) (hov.symm.trans (howner.trans how))
  length := by
    refine le_trans (Table.length_le_of_lookup ?_) h.length
    intro k v hv
    obtain ⟨w, hw, -⟩ := hm k v hv
    exact ⟨w, hw⟩

theorem Slots.perm (h : Slots live sole owner limit size n) (hp : m.entries.Perm n.entries) :
    Slots live sole owner limit size m := by
  apply h.below
  apply Below.of_lookup
  intro k
  exact .inl (AList.perm_lookup hp)

theorem Slots.empty : Slots live sole owner limit size (∅ : Table κ ν) where
  count := Nat.zero_le _
  one := by
    intro i j v w hv
    cases hv
  length := Nat.zero_le _

/-- **A new entry fits when the checks before it passed.** -/
theorem Slots.emplace (h : Slots live sole owner limit size n) {key : κ} {value : ν}
    (hcount : n.entries.countP (fun e => live e.2) < limit)
    (hone : ∀ k v, n.lookup k = some v → sole v = true → owner v ≠ owner value)
    (hlength : n.entries.length < size) :
    Slots live sole owner limit size (n.emplace key value) := by
  by_cases hkey : (n.lookup key).isSome = true
  · rw [Table.emplace, if_pos hkey]
    exact h
  · rw [Table.emplace, if_neg hkey]
    have hnew : key ∉ n := AList.lookup_eq_none.mp (by simpa using hkey)
    have hentries : (AList.insert key value n).entries = ⟨key, value⟩ :: n.entries :=
      AList.entries_insert_of_notMem hnew
    refine ⟨?_, ?_, ?_⟩
    · rw [hentries, List.countP_cons]
      split <;> omega
    · intro i j v w hv hw hsv hsw howner
      by_cases hi : i = key
      · by_cases hj : j = key
        · rw [hi, hj]
        · subst hi
          rw [AList.lookup_insert] at hv
          rw [AList.lookup_insert_ne hj] at hw
          obtain rfl := Option.some.inj hv
          exact absurd howner.symm (hone j w hw hsw)
      · rw [AList.lookup_insert_ne hi] at hv
        by_cases hj : j = key
        · subst hj
          rw [AList.lookup_insert] at hw
          obtain rfl := Option.some.inj hw
          exact absurd howner (hone i v hv hsv)
        · rw [AList.lookup_insert_ne hj] at hw
          exact h.one i j v w hv hw hsv hsw howner
    · rw [hentries, List.length_cons]
      omega

end LocalMediaTransfer.Lib
