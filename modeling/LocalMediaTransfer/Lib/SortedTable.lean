import Mathlib.Tactic

/-!
# Tables with a primary key, read in pages

The rows of a database table under an index on its primary key: a list that ascends strictly in the
key.  Rows are inserted or replaced by key (`upsert`), deleted by key (`erase`), and read through a
cursor: at most `limit` rows that meet a predicate and lie after a key, in key order (`page`).

* `SortedTable.mem_upsert`, `SortedTable.mem_erase`, `SortedTable.lookup_eq_some` — the changed
  table, row by row; `SortedTable.ext_mem` — a table is the set of its rows.
* `SortedTable.page_covers` — no row is passed over: a row that meets the predicate is on the page
  or lies after its last row.
* `SortedTable.after_lt` — a cursor set to the last row of a page leaves fewer rows after it.
-/

set_option autoImplicit false

namespace LocalMediaTransfer.Lib

/-- Rows in strictly ascending order of their keys. -/
structure SortedTable {κ ν : Type} [LinearOrder κ] (key : ν → κ) where
  rows : List ν
  sorted : rows.Pairwise fun a b => key a < key b

namespace SortedTable

variable {κ ν : Type} [LinearOrder κ] {key : ν → κ}

instance : Membership ν (SortedTable key) := ⟨fun t r => r ∈ t.rows⟩

theorem mem_def {t : SortedTable key} {r : ν} : r ∈ t ↔ r ∈ t.rows := Iff.rfl

def empty : SortedTable key := ⟨[], .nil⟩

@[simp] theorem not_mem_empty (r : ν) : r ∉ (empty : SortedTable key) := by
  simp [mem_def, empty]

/-- The key is primary. -/
theorem eq_of_key {t : SortedTable key} {r r' : ν} (h : r ∈ t) (h' : r' ∈ t)
    (hkey : key r = key r') : r = r' := by
  obtain ⟨rows, sorted⟩ := t
  simp only [mem_def] at h h'
  induction rows with
  | nil => cases h
  | cons a rest ih =>
    obtain ⟨ha, hrest⟩ := List.pairwise_cons.mp sorted
    rcases List.mem_cons.mp h with heq | hr
    · rcases List.mem_cons.mp h' with heq' | hr'
      · exact heq.trans heq'.symm
      · exact absurd (heq ▸ hkey) (ha r' hr').ne
    · rcases List.mem_cons.mp h' with heq' | hr'
      · exact absurd (heq' ▸ hkey) (ha r hr).ne'
      · exact ih hrest hr hr'

theorem ext_mem {t u : SortedTable key} (h : ∀ r, r ∈ t ↔ r ∈ u) : t = u := by
  obtain ⟨rows, sorted⟩ := t
  obtain ⟨rows', sorted'⟩ := u
  have hnodup {l : List ν} (hl : l.Pairwise fun a b => key a < key b) : l.Nodup :=
    hl.imp fun hab heq => hab.ne (congrArg key heq)
  have hperm : rows.Perm rows' :=
    (List.perm_ext_iff_of_nodup (hnodup sorted) (hnodup sorted')).mpr h
  obtain rfl := hperm.eq_of_pairwise
    (fun a b _ _ hab hba => absurd hab (not_lt_of_gt hba)) sorted sorted'
  rfl

/-! ## Changing a row -/

def upsertRows (key : ν → κ) (r : ν) : List ν → List ν
  | [] => [r]
  | a :: rest =>
      if key r < key a then r :: a :: rest
      else if key r = key a then r :: rest
      else a :: upsertRows key r rest

theorem mem_upsertRows {r r' : ν} {rows : List ν}
    (hsorted : rows.Pairwise fun a b => key a < key b) :
    r' ∈ upsertRows key r rows ↔ r' = r ∨ (r' ∈ rows ∧ key r' ≠ key r) := by
  induction rows with
  | nil => simp [upsertRows]
  | cons a rest ih =>
    obtain ⟨ha, hrest⟩ := List.pairwise_cons.mp hsorted
    simp only [upsertRows]
    split
    · rename_i hlt
      have hne : ∀ x ∈ a :: rest, key x ≠ key r := by
        intro x hx
        rcases List.mem_cons.mp hx with rfl | hx
        · exact hlt.ne'
        · exact (hlt.trans (ha x hx)).ne'
      constructor
      · intro h
        rcases List.mem_cons.mp h with rfl | h
        · exact .inl rfl
        · exact .inr ⟨h, hne _ h⟩
      · rintro (rfl | ⟨h, -⟩)
        · exact List.mem_cons_self
        · exact List.mem_cons_of_mem _ h
    · rename_i hnlt
      split
      · rename_i heq
        constructor
        · intro h
          rcases List.mem_cons.mp h with rfl | h
          · exact .inl rfl
          · exact .inr ⟨List.mem_cons_of_mem _ h, fun hk => (ha _ h).ne (heq.symm.trans hk.symm)⟩
        · rintro (rfl | ⟨h, hk⟩)
          · exact List.mem_cons_self
          · rcases List.mem_cons.mp h with rfl | h
            · exact absurd heq.symm hk
            · exact List.mem_cons_of_mem _ h
      · rename_i hne
        rw [List.mem_cons, ih hrest, List.mem_cons]
        constructor
        · rintro (rfl | rfl | ⟨h, hk⟩)
          · exact .inr ⟨.inl rfl, fun h => hne h.symm⟩
          · exact .inl rfl
          · exact .inr ⟨.inr h, hk⟩
        · rintro (rfl | ⟨rfl | h, hk⟩)
          · exact .inr (.inl rfl)
          · exact .inl rfl
          · exact .inr (.inr ⟨h, hk⟩)

theorem sorted_upsertRows {r : ν} {rows : List ν}
    (hsorted : rows.Pairwise fun a b => key a < key b) :
    (upsertRows key r rows).Pairwise fun a b => key a < key b := by
  induction rows with
  | nil => simp [upsertRows]
  | cons a rest ih =>
    obtain ⟨ha, hrest⟩ := List.pairwise_cons.mp hsorted
    simp only [upsertRows]
    split
    · rename_i hlt
      refine List.pairwise_cons.mpr ⟨fun x hx => ?_, hsorted⟩
      rcases List.mem_cons.mp hx with rfl | hx
      · exact hlt
      · exact hlt.trans (ha x hx)
    · rename_i hnlt
      split
      · rename_i heq
        exact List.pairwise_cons.mpr ⟨fun x hx => heq ▸ ha x hx, hrest⟩
      · rename_i hne
        refine List.pairwise_cons.mpr ⟨fun x hx => ?_, ih hrest⟩
        rcases (mem_upsertRows hrest).mp hx with rfl | ⟨hx, -⟩
        · exact lt_of_le_of_ne (not_lt.mp hnlt) (fun h => hne h.symm)
        · exact ha x hx

/-- `INSERT ... ON CONFLICT DO UPDATE`. -/
def upsert (r : ν) (t : SortedTable key) : SortedTable key :=
  ⟨upsertRows key r t.rows, sorted_upsertRows t.sorted⟩

@[simp] theorem mem_upsert {r r' : ν} {t : SortedTable key} :
    r' ∈ t.upsert r ↔ r' = r ∨ (r' ∈ t ∧ key r' ≠ key r) :=
  mem_upsertRows t.sorted

/-- `DELETE ... WHERE key = k`. -/
def erase (k : κ) (t : SortedTable key) : SortedTable key :=
  ⟨t.rows.filter fun r => key r ≠ k, t.sorted.filter _⟩

@[simp] theorem mem_erase {k : κ} {r : ν} {t : SortedTable key} :
    r ∈ t.erase k ↔ r ∈ t ∧ key r ≠ k := by
  simp [mem_def, erase]

/-- Without a row that counts fewer rows count. -/
theorem countP_erase_lt {p : ν → Bool} {r : ν} {t : SortedTable key} (hr : r ∈ t)
    (hp : p r = true) :
    (t.erase (key r)).rows.countP p < t.rows.countP p := by
  rw [List.countP_eq_length_filter, List.countP_eq_length_filter]
  show ((t.rows.filter _).filter p).length < _
  rw [List.filter_comm, List.length_filter_lt_length_iff_exists]
  exact ⟨r, List.mem_filter.mpr ⟨hr, hp⟩, by simp⟩

/-- `SELECT ... WHERE key = k`. -/
def lookup (k : κ) (t : SortedTable key) : Option ν := t.rows.find? fun r => key r = k

theorem lookup_eq_some {k : κ} {r : ν} {t : SortedTable key} :
    t.lookup k = some r ↔ r ∈ t ∧ key r = k := by
  constructor
  · intro h
    exact ⟨List.mem_of_find?_eq_some h, by simpa using List.find?_some h⟩
  · rintro ⟨h, rfl⟩
    cases hf : t.lookup (key r) with
    | none => exact absurd (List.find?_eq_none.mp hf r h) (by simp)
    | some r' =>
      rw [eq_of_key (List.mem_of_find?_eq_some hf) h (by simpa using List.find?_some hf)]

theorem lookup_eq_none {k : κ} {t : SortedTable key} :
    t.lookup k = none ↔ ∀ r ∈ t, key r ≠ k := by
  simp [lookup, mem_def]

/-! ## Pages -/

/-- `SELECT ... WHERE p AND key > after ORDER BY key LIMIT limit`. -/
def page (p : ν → Bool) (after : κ) (limit : Nat) (t : SortedTable key) : List ν :=
  (t.rows.filter fun r => p r && after < key r).take limit

theorem mem_of_mem_page {p : ν → Bool} {after : κ} {limit : Nat} {t : SortedTable key} {r : ν}
    (h : r ∈ t.page p after limit) : r ∈ t ∧ p r = true ∧ after < key r := by
  have h := List.mem_of_mem_take h
  simpa [mem_def] using h

/-- **No row is passed over**: a row that meets the predicate and lies after the cursor is on the
page, or the page ends before it. -/
theorem page_covers {p : ν → Bool} {after : κ} {limit : Nat} {t : SortedTable key} {r : ν}
    (hlimit : 0 < limit) (h : r ∈ t) (hp : p r = true) (hafter : after < key r) :
    ∃ last, (t.page p after limit).getLast? = some last ∧
      (r ∈ t.page p after limit ∨ key last < key r) := by
  have hmem : r ∈ t.rows.filter fun r => p r && after < key r :=
    List.mem_filter.mpr ⟨h, by simp [hp, hafter]⟩
  have hsorted := t.sorted.filter fun r => p r && after < key r
  unfold page
  generalize t.rows.filter (fun r => p r && after < key r) = found at hmem hsorted
  have hne : found.take limit ≠ [] := by
    rw [Ne, List.take_eq_nil_iff]
    rintro (h0 | h0)
    · omega
    · rw [h0] at hmem
      cases hmem
  refine ⟨_, List.getLast?_eq_some_getLast hne, ?_⟩
  rw [← List.take_append_drop limit found, List.mem_append] at hmem
  rw [← List.take_append_drop limit found] at hsorted
  rcases hmem with hmem | hmem
  · exact .inl hmem
  · exact .inr ((List.pairwise_append.mp hsorted).2.2 _ (List.getLast_mem hne) r hmem)

/-- How many rows lie after a key. -/
def after (k : κ) (t : SortedTable key) : Nat := (t.rows.filter fun r => k < key r).length

theorem after_lt {p : ν → Bool} {k : κ} {limit : Nat} {t : SortedTable key} {last : ν}
    (hlast : (t.page p k limit).getLast? = some last) : t.after (key last) < t.after k := by
  obtain ⟨hmem, -, hk⟩ := mem_of_mem_page (List.mem_of_getLast? hlast)
  have hsub : t.rows.filter (fun r => key last < key r) =
      (t.rows.filter fun r => k < key r).filter fun r => key last < key r := by
    rw [List.filter_filter]
    refine List.filter_congr fun r _ => ?_
    by_cases h : key last < key r
    · simp [h, hk.trans h]
    · simp [h]
  unfold after
  rw [hsub]
  refine List.length_filter_lt_length_iff_exists.mpr ⟨last, ?_, by simp⟩
  exact List.mem_filter.mpr ⟨hmem, by simpa using hk⟩

/-- A table without new keys has no more rows after a key. -/
theorem after_mono {t u : SortedTable key} (h : ∀ r ∈ u, ∃ r₀ ∈ t, key r₀ = key r) (k : κ) :
    u.after k ≤ t.after k := by
  have hnodup : ((u.rows.filter fun r => k < key r).map key).Nodup := by
    rw [List.Nodup, List.pairwise_map]
    exact (u.sorted.filter _).imp fun hab => hab.ne
  have hsub : (u.rows.filter fun r => k < key r).map key ⊆
      (t.rows.filter fun r => k < key r).map key := by
    intro k' hk'
    obtain ⟨r, hr, rfl⟩ := List.mem_map.mp hk'
    obtain ⟨hr, hlt⟩ := List.mem_filter.mp hr
    obtain ⟨r₀, hr₀, heq⟩ := h r hr
    exact List.mem_map.mpr ⟨r₀, List.mem_filter.mpr ⟨hr₀, by simpa [heq] using hlt⟩, heq⟩
  simpa [after] using (hnodup.subperm hsub).length_le

theorem length_le_of_keys {t u : SortedTable key} (extra : List κ)
    (h : ∀ r ∈ u, key r ∈ extra ∨ ∃ r₀ ∈ t, key r₀ = key r) :
    u.rows.length ≤ extra.length + t.rows.length := by
  have hnodup : (u.rows.map key).Nodup := by
    rw [List.Nodup, List.pairwise_map]
    exact u.sorted.imp fun hab => hab.ne
  have hsub : u.rows.map key ⊆ extra ++ t.rows.map key := by
    intro k' hk'
    obtain ⟨r, hr, rfl⟩ := List.mem_map.mp hk'
    rcases h r hr with h | ⟨r₀, hr₀, heq⟩
    · exact List.mem_append_left _ h
    · exact List.mem_append_right _ (List.mem_map.mpr ⟨r₀, hr₀, heq⟩)
  simpa using (hnodup.subperm hsub).length_le

theorem after_le (k : κ) (t : SortedTable key) : t.after k ≤ t.rows.length :=
  List.length_filter_le _ _

end SortedTable

end LocalMediaTransfer.Lib
