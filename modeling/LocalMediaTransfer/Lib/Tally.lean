import Mathlib.Tactic

/-!
# Tallies over a list whose elements change

Counters of a program that follow the elements of a list: how a count or a sum moves when one
element is replaced.

* `countP_modify`, `sum_modify` — the element at one place changes.
* `countP_set`, `sum_set`, `sum_eraseIdx` — it is replaced, or left out.
* `getElem?_modify_eq_some`, `getElem?_set_eq_some` — the elements after it.
* `map_modify_eq` — what does not see the replacement.
* `countP_congr_map`, `sum_congr_map` — every element changes and nothing that is counted.
* `countP_map_add`, `sum_map_add`, `countP_partition` — counts that add up element by element.
-/

set_option autoImplicit false

namespace LocalMediaTransfer.Lib

variable {α : Type} {l : List α} {i : Nat} {a : α}

theorem countP_cons_toNat (p : α → Bool) (a : α) (l : List α) :
    (a :: l).countP p = l.countP p + (p a).toNat := by
  rw [List.countP_cons]
  cases p a <;> rfl

theorem countP_modify (p : α → Bool) (g : α → α) (h : l[i]? = some a) :
    (l.modify i g).countP p + (p a).toNat = l.countP p + (p (g a)).toNat := by
  induction l generalizing i with
  | nil => cases h
  | cons b rest ih =>
    cases i with
    | zero =>
      cases h
      rw [List.modify_zero_cons, countP_cons_toNat, countP_cons_toNat]
      omega
    | succ i =>
      have hrest := ih h
      rw [List.modify_succ_cons, countP_cons_toNat, countP_cons_toNat]
      omega

theorem sum_modify (f : α → Nat) (g : α → α) (h : l[i]? = some a) :
    ((l.modify i g).map f).sum + f a = (l.map f).sum + f (g a) := by
  induction l generalizing i with
  | nil => cases h
  | cons b rest ih =>
    cases i with
    | zero =>
      cases h
      simp
      omega
    | succ i =>
      have hrest := ih h
      simp
      omega

/-- A replacement that makes nothing larger. -/
theorem sum_modify_le {f : α → Nat} {g : α → α} (h : ∀ a, f (g a) ≤ f a) :
    ((l.modify i g).map f).sum ≤ (l.map f).sum := by
  cases hi : l[i]? with
  | none => rw [List.modify_eq_self (List.getElem?_eq_none_iff.mp hi)]
  | some a =>
    have hsum := sum_modify f g hi
    have hle := h a
    omega

theorem getElem?_modify_eq_some {g : α → α} {j : Nat} {b : α} :
    (l.modify i g)[j]? = some b ↔
      (i = j ∧ ∃ a, l[j]? = some a ∧ g a = b) ∨ (i ≠ j ∧ l[j]? = some b) := by
  by_cases hij : i = j
  · subst hij
    simp
  · simp [hij]

theorem forall_mem_modify {P : α → Prop} {g : α → α} (h : ∀ b ∈ l, P b)
    (ha : ∀ a, l[i]? = some a → P (g a)) : ∀ b ∈ l.modify i g, P b := by
  intro b hb
  obtain ⟨j, hj⟩ := List.mem_iff_getElem?.mp hb
  rcases getElem?_modify_eq_some.mp hj with ⟨rfl, a, haj, rfl⟩ | ⟨-, hbj⟩
  · exact ha a haj
  · exact h b (List.mem_of_getElem? hbj)

/-- A replacement that a view does not see. -/
theorem map_modify_eq {β : Type} {f : α → β} {g : α → α} (h : ∀ a, l[i]? = some a → f (g a) = f a) :
    (l.modify i g).map f = l.map f := by
  induction l generalizing i with
  | nil => rw [List.modify_nil]
  | cons b rest ih =>
    cases i with
    | zero => rw [List.modify_zero_cons, List.map_cons, List.map_cons, h b rfl]
    | succ i => rw [List.modify_succ_cons, List.map_cons, List.map_cons, ih h]

/-- The element at one place of a list is replaced. -/
theorem getElem?_set_eq_some {j : Nat} {b : α} :
    (l.set i a)[j]? = some b ↔ (i = j ∧ j < l.length ∧ a = b) ∨ (i ≠ j ∧ l[j]? = some b) := by
  rw [List.getElem?_set]
  by_cases hij : i = j
  · subst hij
    simp
  · simp [hij]

theorem countP_set (p : α → Bool) (b : α) (h : l[i]? = some a) :
    (l.set i b).countP p + (p a).toNat = l.countP p + (p b).toNat := by
  rw [List.set_eq_modify]
  exact countP_modify p (fun _ => b) h

theorem sum_set (f : α → Nat) (h : l[i]? = some a) (b : α) :
    ((l.set i b).map f).sum + f a = (l.map f).sum + f b := by
  rw [List.set_eq_modify]
  exact sum_modify f (fun _ => b) h

theorem sum_eraseIdx (f : α → Nat) (h : l[i]? = some a) :
    ((l.eraseIdx i).map f).sum + f a = (l.map f).sum := by
  induction l generalizing i with
  | nil => cases h
  | cons b rest ih =>
    cases i with
    | zero =>
      cases h
      simp only [List.eraseIdx_cons_zero, List.map_cons, List.sum_cons]
      omega
    | succ i =>
      have hrest := ih h
      simp only [List.eraseIdx_cons_succ, List.map_cons, List.sum_cons]
      omega

theorem countP_congr_map {p q : α → Bool} {g : α → α} (h : ∀ a ∈ l, p (g a) = q a) :
    (l.map g).countP p = l.countP q := by
  rw [List.countP_map]
  exact List.countP_congr fun a ha => by rw [Function.comp_apply, h a ha]

theorem sum_congr_map {f f' : α → Nat} {g : α → α} (h : ∀ a ∈ l, f (g a) = f' a) :
    ((l.map g).map f).sum = (l.map f').sum := by
  rw [List.map_map]
  exact congrArg List.sum (List.map_congr_left h)

/-- Every element counts as much more as it is counted by a second predicate. -/
theorem countP_map_add {p q : α → Bool} {g : α → α}
    (h : ∀ a ∈ l, (p (g a)).toNat = (p a).toNat + (q a).toNat) :
    (l.map g).countP p = l.countP p + l.countP q := by
  induction l with
  | nil => rfl
  | cons a rest ih =>
    have hrest := ih fun b hb => h b (List.mem_cons_of_mem _ hb)
    have hhead := h a (List.mem_cons_self ..)
    rw [List.map_cons, countP_cons_toNat, countP_cons_toNat, countP_cons_toNat]
    omega

theorem sum_map_add {f d : α → Nat} {g : α → α} (h : ∀ a ∈ l, f (g a) = f a + d a) :
    ((l.map g).map f).sum = (l.map f).sum + (l.map d).sum := by
  induction l with
  | nil => rfl
  | cons a rest ih =>
    have hrest := ih fun b hb => h b (List.mem_cons_of_mem _ hb)
    have hhead := h a (List.mem_cons_self ..)
    simp only [List.map_cons, List.sum_cons]
    omega

/-- Three predicates of which each element meets one. -/
theorem countP_partition {p q r : α → Bool}
    (h : ∀ a ∈ l, (p a).toNat + (q a).toNat + (r a).toNat = 1) :
    l.countP p + l.countP q + l.countP r = l.length := by
  induction l with
  | nil => rfl
  | cons a rest ih =>
    have hrest := ih fun b hb => h b (List.mem_cons_of_mem _ hb)
    have hhead := h a (List.mem_cons_self ..)
    rw [countP_cons_toNat, countP_cons_toNat, countP_cons_toNat, List.length_cons]
    omega

end LocalMediaTransfer.Lib
