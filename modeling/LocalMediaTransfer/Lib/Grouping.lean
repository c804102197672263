import Mathlib.Tactic

/-!
# Batches and groups of a list

Programs cut a list into batches of a fixed size, and sort it into groups by a key, keeping the
order in which the keys appear.

* `flatten_batches` — the batches are the list, in order.
* `mem_groupBy` — the group of a key is the list of all elements with that key.
* `groupBy_keys_nodup` — every key has one group.
* `setAdd` — a set that keeps the order of insertion.
* `foldlM_invariant` — what a loop that may stop early preserves.
* `mapM_isSome_iff` — when every element has a result.
-/

set_option autoImplicit false

namespace LocalMediaTransfer.Lib

variable {α κ : Type}

/-! ## Batches -/

/-- The first `fuel` slices of length `size`. -/
def batchesAux (size : Nat) : Nat → List α → List (List α)
  | 0, _ => []
  | _ + 1, [] => []
  | fuel + 1, a :: l => (a :: l).take size :: batchesAux size fuel ((a :: l).drop size)

/-- The slices of length `size`; the last one may be shorter. -/
def batches (size : Nat) (l : List α) : List (List α) := batchesAux size l.length l

theorem flatten_batchesAux {size : Nat} (hsize : 0 < size) :
    ∀ {fuel : Nat} {l : List α}, l.length ≤ fuel → (batchesAux size fuel l).flatten = l
  | 0, l, h => by
    rw [List.length_eq_zero_iff.mp (Nat.le_zero.mp h)]
    rfl
  | fuel + 1, [], _ => rfl
  | fuel + 1, a :: l, h => by
    have hdrop : ((a :: l).drop size).length ≤ fuel := by
      simp only [List.length_drop, List.length_cons] at h ⊢
      omega
    rw [batchesAux, List.flatten_cons, flatten_batchesAux hsize hdrop, List.take_append_drop]

theorem flatten_batches {size : Nat} (hsize : 0 < size) (l : List α) :
    (batches size l).flatten = l :=
  flatten_batchesAux hsize (Nat.le_refl _)

/-! ## Groups -/

variable [DecidableEq κ]

/-- Put an element at the end of the group of its key. -/
def addToGroup (k : κ) (a : α) : List (κ × List α) → List (κ × List α)
  | [] => [(k, [a])]
  | (k', g) :: groups => if k' =
    k then (k', g ++ [a]) :: groups else (k', g) :: addToGroup k a groups

/-- The groups by key, in the order of the first elements; an element without a key is left out. -/
def groupBy (key : α → Option κ) (l : List α) : List (κ × List α) :=
  l.foldl (fun groups a => (key a).elim groups fun k => addToGroup k a groups) []

theorem addToGroup_keys (k : κ) (a : α) (groups : List (κ × List α)) :
    (addToGroup k a groups).map (·.1) =
      if k ∈ groups.map (·.1) then groups.map (·.1) else groups.map (·.1) ++ [k] := by
  induction groups with
  | nil => simp [addToGroup]
  | cons e groups ih =>
    obtain ⟨k', g⟩ := e
    unfold addToGroup
    by_cases hk : k' = k
    · simp [hk]
    · rw [if_neg hk, List.map_cons, ih]
      have hne : k ≠ k' := fun h => hk h.symm
      simp only [List.map_cons, List.mem_cons, hne, false_or]
      split <;> rfl

theorem mem_addToGroup {k : κ} {a : α} {groups : List (κ × List α)}
    (hn : (groups.map (·.1)).Nodup) {h : κ} {g : List α} :
    (h, g) ∈ addToGroup k a groups ↔
      if h = k then (∃ g', (k, g') ∈ groups ∧ g = g' ++ [a]) ∨ (k ∉ groups.map (·.1) ∧ g = [a])
      else (h, g) ∈ groups := by
  induction groups with
  | nil =>
    simp only [addToGroup, List.mem_singleton, Prod.mk.injEq, List.not_mem_nil, false_and,
      exists_false, List.map_nil, not_false_eq_true, true_and, false_or]
    split
    · rename_i hk; simp [hk]
    · rename_i hk; simp [hk]
  | cons e groups ih =>
    obtain ⟨k', g₀⟩ := e
    rw [List.map_cons, List.nodup_cons] at hn
    unfold addToGroup
    by_cases hk : k' = k
    · subst hk
      rw [if_pos rfl, List.mem_cons]
      by_cases hh : h = k'
      · subst hh
        rw [if_pos rfl]
        constructor
        · rintro (heq | hmem)
          · cases heq
            exact .inl ⟨g₀, List.mem_cons_self .., rfl⟩
          · exact absurd (List.mem_map_of_mem (f := (·.1)) hmem) hn.1
        · rintro (⟨g', hg', rfl⟩ | ⟨habs, -⟩)
          · rcases List.mem_cons.mp hg' with heq | hmem
            · cases heq
              exact .inl rfl
            · exact absurd (List.mem_map_of_mem (f := (·.1)) hmem) hn.1
          · exact absurd (List.mem_cons_self ..) habs
      · simp [hh]
    · rw [if_neg hk, List.mem_cons, ih hn.2]
      have hne : k ≠ k' := fun heq => hk heq.symm
      by_cases hh : h = k
      · subst hh
        simp [hne]
      · simp [hh]

theorem groupBy_snoc (key : α → Option κ) (l : List α) (a : α) :
    groupBy key (l ++ [a]) = (key a).elim (groupBy key l) fun k =>
      addToGroup k a (groupBy key l) := by
  simp [groupBy]

theorem groupBy_keys_nodup (key : α → Option κ) (l : List α) :
    ((groupBy key l).map (·.1)).Nodup := by
  induction l using List.reverseRecOn with
  | nil => exact List.nodup_nil
  | append_singleton l a ih =>
    rw [groupBy_snoc]
    cases key a with
    | none => exact ih
    | some k =>
      rw [Option.elim_some, addToGroup_keys]
      split
      · exact ih
      · rename_i hk
        exact List.Nodup.append ih (List.nodup_singleton k) (by simpa using hk)

/-- **The group of a key.** -/
theorem mem_groupBy {key : α → Option κ} {l : List α} {k : κ} {g : List α} :
    (k, g) ∈ groupBy key l ↔ g = l.filter (fun a => key a = some k) ∧ g ≠ [] := by
  induction l using List.reverseRecOn generalizing g with
  | nil =>
    simp only [groupBy, List.foldl_nil, List.not_mem_nil, List.filter_nil, ne_eq,
      false_iff, not_and,
      not_not]
    exact id
  | append_singleton l a ih =>
    rw [groupBy_snoc, List.filter_append, List.filter_singleton]
    cases hka : key a with
    | none => simpa using ih
    | some k' =>
      rw [Option.elim_some, mem_addToGroup (groupBy_keys_nodup key l)]
      by_cases hk : k = k'
      · subst hk
        rw [if_pos rfl]
        simp only [decide_true, cond_true]
        constructor
        · rintro (⟨g', hg', rfl⟩ | ⟨habs, rfl⟩)
          · exact ⟨by rw [(ih.mp hg').1], by simp⟩
          · have hempty : l.filter (fun a => decide (key a = some k)) = [] := by
              by_contra hne
              exact habs (List.mem_map_of_mem (f := (·.1)) (ih.mpr ⟨rfl, hne⟩))
            exact ⟨by rw [hempty, List.nil_append], by simp⟩
        · rintro ⟨rfl, -⟩
          by_cases hempty : l.filter (fun a => decide (key a = some k)) = []
          · refine .inr ⟨fun hmem => ?_, by rw [hempty, List.nil_append]⟩
            obtain ⟨⟨k', g'⟩, hg', rfl⟩ := List.mem_map.mp hmem
            exact (ih.mp hg').2 ((ih.mp hg').1.trans hempty)
          · exact .inl ⟨_, ih.mpr ⟨rfl, hempty⟩, rfl⟩
      · have hne : k' ≠ k := fun h => hk h.symm
        rw [if_neg hk, ih]
        simp [hne]

theorem exists_mem_groupBy (key : α → Option κ) {l : List α} {a : α} {k : κ} (ha : a ∈ l)
    (hk : key a = some k) : ∃ g, (k, g) ∈ groupBy key l ∧ a ∈ g := by
  have hmem : a ∈ l.filter fun a => key a = some k := by
    simp [ha, hk]
  exact ⟨_, mem_groupBy.mpr ⟨rfl, List.ne_nil_of_mem hmem⟩, hmem⟩

/-! ## Sets in the order of insertion -/

/-- Add an element at the end, unless it is there. -/
def setAdd (l : List κ) (a : κ) : List κ := if a ∈ l then l else l ++ [a]

theorem nodup_setAdd {l : List κ} (h : l.Nodup) (a : κ) : (setAdd l a).Nodup := by
  unfold setAdd
  split
  · exact h
  · rename_i ha
    exact List.Nodup.append h (List.nodup_singleton a) (by simpa using ha)

theorem mem_setAdd {l : List κ} {a b : κ} : b ∈ setAdd l a ↔ b ∈ l ∨ b = a := by
  unfold setAdd
  split
  · rename_i ha
    exact ⟨Or.inl, fun h => h.elim id fun h => h ▸ ha⟩
  · simp

theorem mem_foldl_setAdd {l : List κ} {b : κ} (l' : List κ) :
    b ∈ l'.foldl setAdd l ↔ b ∈ l ∨ b ∈ l' := by
  induction l' generalizing l with
  | nil => simp
  | cons a l' ih => rw [List.foldl_cons, ih, mem_setAdd, List.mem_cons, or_assoc]

theorem nodup_foldl_setAdd {l : List κ} (h : l.Nodup) (l' : List κ) :
    (l'.foldl setAdd l).Nodup := by
  induction l' generalizing l with
  | nil => exact h
  | cons a l' ih => exact ih (nodup_setAdd h a)

/-! ## Loops that may stop early -/

theorem foldlM_invariant {β : Type} {f : β → α → Option β} {P : β → Prop} {l : List α} {b c : β}
    (h0 : P b) (hstep : ∀ b a c, P b → f b a = some c → P c) (h : l.foldlM f b = some c) : P c := by
  induction l generalizing b with
  | nil =>
    cases h
    exact h0
  | cons a l ih =>
    rw [List.foldlM_cons] at h
    obtain ⟨d, hd, h⟩ := Option.bind_eq_some_iff.mp h
    exact ih (hstep b a d h0 hd) h

/-- A loop that no element stops returns. -/
theorem foldlM_isSome {β : Type} {f : β → α → Option β} {l : List α}
    (hstep : ∀ b, ∀ a ∈ l, (f b a).isSome) (b : β) : ∃ c, l.foldlM f b = some c := by
  induction l generalizing b with
  | nil => exact ⟨b, rfl⟩
  | cons a l ih =>
    obtain ⟨d, hd⟩ := Option.isSome_iff_exists.mp (hstep b a (List.mem_cons_self ..))
    obtain ⟨c, hc⟩ := ih (fun b a' ha' => hstep b a' (List.mem_cons_of_mem _ ha')) d
    refine ⟨c, ?_⟩
    rw [List.foldlM_cons, hd]
    exact hc

theorem foldlM_invariant_of_mem {β : Type} {f : β → α → Option β} {P : β → Prop} {l : List α}
    {b c : β} (h0 : P b) (hstep : ∀ b, ∀ a ∈ l, ∀ c, P b → f b a = some c → P c)
    (h : l.foldlM f b = some c) : P c := by
  induction l generalizing b with
  | nil =>
    cases h
    exact h0
  | cons a l ih =>
    rw [List.foldlM_cons] at h
    obtain ⟨d, hd, h⟩ := Option.bind_eq_some_iff.mp h
    exact ih (hstep b a (List.mem_cons_self ..) d h0 hd)
      (fun b a' ha' => hstep b a' (List.mem_cons_of_mem _ ha')) h

/-- What an iteration establishes about its element, and later ones keep, holds of every element. -/
theorem foldlM_each {β : Type} {f : β → α → Option β} {Q : α → β → Prop} {l : List α} {b c : β}
    (hdone : ∀ b a c, f b a = some c → Q a c) (hkeep : ∀ b a a' c, Q a b → f b a' = some c → Q a c)
    (h : l.foldlM f b = some c) : ∀ a ∈ l, Q a c := by
  induction l generalizing b with
  | nil =>
    intro a ha
    cases ha
  | cons a l ih =>
    rw [List.foldlM_cons] at h
    obtain ⟨d, hd, hrest⟩ := Option.bind_eq_some_iff.mp h
    intro a' ha'
    rcases List.mem_cons.mp ha' with rfl | ha'
    · exact foldlM_invariant (hdone b a' d hd) (fun b a c hq hstep => hkeep b a' a c hq hstep) hrest
    · exact ih hrest a' ha'

/-! ## One result for every element -/

theorem mapM_isSome_iff {β : Type} {f : α → Option β} {l : List α} :
    (l.mapM f).isSome = true ↔ ∀ a ∈ l, (f a).isSome = true := by
  induction l with
  | nil => simp
  | cons a l ih =>
    rw [List.mapM_cons, List.forall_mem_cons, ← ih]
    cases f a <;> cases l.mapM f <;> simp

theorem mapM_eq_map {β : Type} {f : α → Option β} {g : α → β} {l : List α}
    (h : ∀ a ∈ l, f a = some (g a)) : l.mapM f = some (l.map g) := by
  induction l with
  | nil => rfl
  | cons a l ih =>
    obtain ⟨ha, hrest⟩ := List.forall_mem_cons.mp h
    rw [List.mapM_cons, ha, ih hrest]
    rfl

end LocalMediaTransfer.Lib
