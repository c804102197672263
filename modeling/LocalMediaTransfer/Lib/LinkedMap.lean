import Mathlib.Tactic
import LocalMediaTransfer.Lib.Tally

/-!
# Maps in the order of insertion

A map whose entries keep the place of their first assignment, as the maps of many scripting
languages do: a second assignment to a key changes the value and not the place.

* `LinkedMap.set` — assignment; `LinkedMap.get?` — lookup.
* `LinkedMap.get?_set` — what is found after an assignment.
* `LinkedMap.countP_set` — how the number of entries of a kind moves.
-/

set_option autoImplicit false

namespace LocalMediaTransfer.Lib

/-- Entries with distinct keys, the oldest key first. -/
structure LinkedMap (κ ν : Type) where
  entries : List (κ × ν)
  nodup : (entries.map Prod.fst).Nodup

namespace LinkedMap

variable {κ ν : Type} [DecidableEq κ]

def empty : LinkedMap κ ν := ⟨[], List.nodup_nil⟩

def find (k : κ) : List (κ × ν) → Option ν
  | [] => none
  | e :: rest => if e.1 = k then some e.2 else find k rest

def assign (k : κ) (v : ν) : List (κ × ν) → List (κ × ν)
  | [] => [(k, v)]
  | e :: rest => if e.1 = k then (k, v) :: rest else e :: assign k v rest

theorem mem_keys_assign {k key : κ} {v : ν} {l : List (κ × ν)} :
    key ∈ (assign k v l).map Prod.fst ↔ key = k ∨ key ∈ l.map Prod.fst := by
  induction l with
  | nil => simp [assign]
  | cons e rest ih =>
    unfold assign
    split
    · rename_i he
      subst he
      simp
    · simp only [List.map_cons, List.mem_cons, ih]
      tauto

theorem nodup_keys_assign {l : List (κ × ν)} (h : (l.map Prod.fst).Nodup) (k : κ) (v : ν) :
    ((assign k v l).map Prod.fst).Nodup := by
  induction l with
  | nil => simp [assign]
  | cons e rest ih =>
    rw [List.map_cons, List.nodup_cons] at h
    unfold assign
    split
    · rename_i he
      subst he
      simpa using h
    · rename_i hne
      rw [List.map_cons, List.nodup_cons]
      refine ⟨fun hmem => ?_, ih h.2⟩
      rcases mem_keys_assign.mp hmem with he | hmem
      · exact hne he
      · exact h.1 hmem

def get? (m : LinkedMap κ ν) (k : κ) : Option ν := find k m.entries

def set (m : LinkedMap κ ν) (k : κ) (v : ν) : LinkedMap κ ν :=
  ⟨assign k v m.entries, nodup_keys_assign m.nodup k v⟩

def values (m : LinkedMap κ ν) : List ν := m.entries.map Prod.snd

def size (m : LinkedMap κ ν) : Nat := m.entries.length

@[simp] theorem get?_empty (k : κ) : (empty : LinkedMap κ ν).get? k = none := rfl

theorem find_assign (k : κ) (v : ν) (l : List (κ × ν)) (key : κ) :
    find key (assign k v l) = if key = k then some v else find key l := by
  induction l with
  | nil => simp [assign, find, eq_comm]
  | cons e rest ih =>
    unfold assign
    by_cases he : e.1 = k
    · rw [if_pos he]
      subst he
      by_cases hkey : key = e.1
      · simp [find, hkey]
      · simp [find, hkey, Ne.symm hkey]
    · rw [if_neg he]
      unfold find
      by_cases hkey : e.1 = key
      · have hne : key ≠ k := fun h => he (hkey.trans h)
        rw [if_pos hkey, if_neg hne, if_pos hkey]
      · rw [if_neg hkey, ih, if_neg hkey]

theorem get?_set (m : LinkedMap κ ν) (k : κ) (v : ν) (key : κ) :
    (m.set k v).get? key = if key = k then some v else m.get? key :=
  find_assign k v m.entries key

@[simp] theorem get?_set_self (m : LinkedMap κ ν) (k : κ) (v : ν) :
    (m.set k v).get? k = some v := by
  rw [get?_set, if_pos rfl]

theorem get?_set_ne (m : LinkedMap κ ν) {k key : κ} (h : key ≠ k) (v : ν) :
    (m.set k v).get? key = m.get? key := by
  rw [get?_set, if_neg h]

theorem find_eq_some_iff {l : List (κ × ν)} (h : (l.map Prod.fst).Nodup) {k : κ} {v : ν} :
    find k l = some v ↔ (k, v) ∈ l := by
  induction l with
  | nil => simp [find]
  | cons e rest ih =>
    rw [List.map_cons, List.nodup_cons] at h
    unfold find
    by_cases he : e.1 = k
    · rw [if_pos he]
      constructor
      · rintro hv
        cases hv
        subst he
        exact List.mem_cons_self
      · intro hmem
        rcases List.mem_cons.mp hmem with heq | hmem
        · rw [← heq]
        · exact absurd (List.mem_map_of_mem hmem) (he ▸ h.1)
    · rw [if_neg he, ih h.2]
      constructor
      · exact List.mem_cons_of_mem e
      · intro hmem
        rcases List.mem_cons.mp hmem with heq | hmem
        · exact absurd (congrArg Prod.fst heq).symm he
        · exact hmem

theorem get?_eq_some_iff {m : LinkedMap κ ν} {k : κ} {v : ν} :
    m.get? k = some v ↔ (k, v) ∈ m.entries :=
  find_eq_some_iff m.nodup

theorem mem_values {m : LinkedMap κ ν} {v : ν} : v ∈ m.values ↔ ∃ k, m.get? k = some v := by
  unfold values
  simp [get?_eq_some_iff]

theorem countP_assign (p : κ × ν → Bool) (k : κ) (v : ν) (l : List (κ × ν)) :
    (assign k v l).countP p + ((find k l).elim 0 fun old => (p (k, old)).toNat) =
      l.countP p + (p (k, v)).toNat := by
  induction l with
  | nil => simp [assign, find, countP_cons_toNat]
  | cons e rest ih =>
    unfold assign find
    by_cases he : e.1 = k
    · subst he
      simp [countP_cons_toNat]
      omega
    · rw [if_neg he, if_neg he, countP_cons_toNat, countP_cons_toNat]
      omega

/-- **An assignment takes the old entry out of the count and puts the new one in.** -/
theorem countP_set (p : κ × ν → Bool) (m : LinkedMap κ ν) (k : κ) (v : ν) :
    (m.set k v).entries.countP p + ((m.get? k).elim 0 fun old => (p (k, old)).toNat) =
      m.entries.countP p + (p (k, v)).toNat :=
  countP_assign p k v m.entries

end LinkedMap

end LocalMediaTransfer.Lib
