import LocalMediaTransfer.WindowsClient.DiscoveryClient

/-!
# The destinations of a discovery scan

What one subnet contributes, and how `EnumerateDestinations` draws from the subnets of all
eligible adapters: in rounds, one address from each adapter that has one left, until the cap is
reached or every adapter is exhausted.

* `enumerateSubnet_spec` — the addresses of one subnet.
* `FairDraw` — what drawing in turn comes to; `Drawn` is its invariant, the state of a round.
* `drawDestinations_spec` — the loop over any enumerators.
* `discovery_targets` — both together.
-/

set_option autoImplicit false

namespace LocalMediaTransfer

namespace Discovery

/-! ## Addresses as numbers -/

theorem toNat_toUInt32 (a b c d : UInt8) :
    (toUInt32 [a, b, c, d]).toNat =
    a.toNat * 2 ^ 24 + b.toNat * 2 ^ 16 + c.toNat * 2 ^ 8 + d.toNat := by
  have ha := a.toNat_lt
  have hb := b.toNat_lt
  have hc := c.toNat_lt
  have hd := d.toNat_lt
  have hlow : c.toNat <<< 8 ||| d.toNat = c.toNat * 2 ^ 8 + d.toNat := by
    rw [← Nat.shiftLeft_add_eq_or_of_lt (by omega), Nat.shiftLeft_eq]
  have hmid : b.toNat <<< 16 ||| (c.toNat * 2 ^ 8 + d.toNat) =
      b.toNat * 2 ^ 16 + (c.toNat * 2 ^ 8 + d.toNat) := by
    rw [← Nat.shiftLeft_add_eq_or_of_lt (by omega), Nat.shiftLeft_eq]
  have hhigh : a.toNat <<< 24 ||| (b.toNat * 2 ^ 16 + (c.toNat * 2 ^ 8 + d.toNat)) =
      a.toNat * 2 ^ 24 + (b.toNat * 2 ^ 16 + (c.toNat * 2 ^ 8 + d.toNat)) := by
    rw [← Nat.shiftLeft_add_eq_or_of_lt (by omega), Nat.shiftLeft_eq]
  have hshift : ∀ (x : UInt8) (k : Nat), k ≤ 24 →
      (x.toNat <<< k) % 2 ^ 32 = x.toNat <<< k := by
    intro x k hk
    have hx := x.toNat_lt
    rw [Nat.shiftLeft_eq]
    apply Nat.mod_eq_of_lt
    calc x.toNat * 2 ^ k ≤ x.toNat * 2 ^ 24 :=
      Nat.mul_le_mul_left _ (Nat.pow_le_pow_right (by omega) hk)
      _ < 2 ^ 32 := by omega
  simp only [toUInt32, List.getD_cons_zero, List.getD_cons_succ, UInt32.toNat_or,
    UInt32.toNat_shiftLeft, UInt8.toNat_toUInt32, UInt32.reduceToNat, Nat.reduceMod]
  rw [hshift a 24 (by omega), hshift b 16 (by omega), hshift c 8 (by omega), Nat.or_assoc,
    Nat.or_assoc, hlow, hmid, hhigh]
  omega

/-- An address is read back from its bytes. -/
theorem toUInt32_fromUInt32 (value : UInt32) : toUInt32 (fromUInt32 value) = value := by
  have hlt := value.toNat_lt
  rw [← UInt32.toNat_inj, fromUInt32, toNat_toUInt32]
  simp only [UInt32.toNat_toUInt8, UInt32.toNat_shiftRight, UInt32.reduceToNat, Nat.reduceMod,
    Nat.shiftRight_eq_div_pow]
  omega

/-- Private addresses are far from both ends of the address space. -/
theorem isPrivate_bounds {address : IPAddress} (h : isPrivate address = true) :
    512 < (toUInt32 address).toNat ∧ (toUInt32 address).toNat + 2048 < 2 ^ 32 := by
  unfold isPrivate at h
  split at h
  · rename_i a b c d
    have hb := b.toNat_lt
    have hc := c.toNat_lt
    have hd := d.toNat_lt
    rw [toNat_toUInt32]
    have ha : 10 ≤ a.toNat ∧ a.toNat ≤ 192 := by
      simp only [Bool.or_eq_true, Bool.and_eq_true, beq_iff_eq] at h
      rcases h with ((rfl | ⟨⟨rfl, -⟩, -⟩) | ⟨rfl, -⟩) | ⟨rfl, -⟩ <;> decide
    omega
  · cases h

/-! ## One subnet -/

/-- The masks that are scanned are the contiguous ones with at least two host bits. -/
theorem scansMask_iff (mask : UInt32) :
    scansMask mask = true ↔ ∃ k, 2 ≤ k ∧ k ≤ 32 ∧ (~~~mask).toNat = 2 ^ k - 1 := by
  unfold scansMask
  generalize ~~~mask = host
  have hlt := host.toNat_lt
  have hand : (host &&& (host + 1) = 0) ↔ host.toNat &&& ((host.toNat + 1) % 2 ^ 32) = 0 := by
    rw [← UInt32.toNat_inj, UInt32.toNat_and, UInt32.toNat_add]
    rfl
  have hpow : (host &&& (host + 1) = 0) ↔ ∃ k, k ≤ 32 ∧ host.toNat + 1 = 2 ^ k := by
    rw [hand]
    by_cases hall : host.toNat + 1 = 2 ^ 32
    · rw [hall, Nat.mod_self, Nat.and_zero]
      exact ⟨fun _ => ⟨32, le_refl _, rfl⟩, fun _ => rfl⟩
    · rw [Nat.mod_eq_of_lt (by omega)]
      have hiff := Nat.and_sub_one_eq_zero_iff_isPowerOfTwo (n := host.toNat + 1) (by omega)
      rw [Nat.add_sub_cancel, Nat.and_comm] at hiff
      rw [hiff]
      constructor
      · rintro ⟨k, hk⟩
        refine ⟨k, ?_, hk⟩
        by_contra hcontra
        have : 2 ^ 33 ≤ 2 ^ k := Nat.pow_le_pow_right (by omega) (by omega)
        omega
      · rintro ⟨k, -, hk⟩
        exact ⟨k, hk⟩
  have htwo : host < 2 ↔ host.toNat < 2 := UInt32.lt_iff_toNat_lt
  simp only [Bool.not_eq_true', Bool.or_eq_false_iff, decide_eq_false_iff_not, bne_eq_false_iff_eq,
    htwo, hpow]
  constructor
  · rintro ⟨hnarrow, k, hk, heq⟩
    refine ⟨k, ?_, hk, by omega⟩
    by_contra hcontra
    have : 2 ^ k ≤ 2 ^ 1 := Nat.pow_le_pow_right (by omega) (by omega)
    omega
  · rintro ⟨k, hk2, hk, heq⟩
    have : 2 ^ 2 ≤ 2 ^ k := Nat.pow_le_pow_right (by omega) hk2
    exact ⟨by omega, k, hk, by omega⟩

/-- The loop goes through the window and leaves the local address out. -/
theorem walk_eq (l last candidate : UInt32) :
    walk l last candidate =
      ((List.range' candidate.toNat (last.toNat + 1 - candidate.toNat)).filter
        fun v => decide (v ≠ l.toNat)).map fun v => fromUInt32 (UInt32.ofNat v) := by
  have hhead : ∀ (c : UInt32) (tail : List Nat),
      yielded l c ++
          (tail.filter fun v => decide (v ≠ l.toNat)).map (fun v => fromUInt32 (UInt32.ofNat v)) =
        ((c.toNat :: tail).filter fun v => decide (v ≠ l.toNat)).map
          fun v => fromUInt32 (UInt32.ofNat v) := by
    intro c tail
    unfold yielded
    by_cases hc : c = l
    · simp [hc]
    · have hne : c.toNat ≠ l.toNat := fun h => hc (UInt32.toNat_inj.mp h)
      simp [hc, hne]
  induction candidate using walk.induct last with
  | case1 hle =>
    have hlast : last.toNat = 4294967295 := by
      have h1 := UInt32.le_iff_toNat_le.mp hle
      have h2 := last.toNat_lt
      change 4294967295 ≤ last.toNat at h1
      omega
    have htail := hhead 4294967295 []
    rw [walk, dif_pos hle, dif_pos rfl, hlast]
    rw [List.filter_nil, List.map_nil, List.append_nil] at htail
    rw [htail]
    rfl
  | case2 c hle hmax ih =>
    have hlt := c.toNat_lt
    have hne : c.toNat ≠ 4294967295 := fun h => hmax (UInt32.toNat_inj.mp h)
    have hle' := UInt32.le_iff_toNat_le.mp hle
    have hnext : (c + 1).toNat = c.toNat + 1 := toNat_add_of_lt (by change c.toNat + 1 < _; omega)
    rw [walk, dif_pos hle, dif_neg hmax, ih, hnext, hhead]
    rw [show last.toNat + 1 - c.toNat = (last.toNat + 1 - (c.toNat + 1)) + 1 by omega,
      List.range'_succ]
  | case3 c hle =>
    have hgt : last.toNat < c.toNat := by
      by_contra hcontra
      exact hle (UInt32.le_iff_toNat_le.mpr (by omega))
    rw [walk, dif_neg hle, show last.toNat + 1 - c.toNat = 0 by omega]
    rfl

/-- The numbers that a subnet with this window is scanned for. -/
def windowHosts (l first last : Nat) : List Nat :=
  (List.range' first (last + 1 - first)).filter fun v => decide (v ≠ l)

theorem mem_windowHosts {l first last v : Nat} :
    v ∈ windowHosts l first last ↔ (first ≤ v ∧ v ≤ last) ∧ v ≠ l := by
  unfold windowHosts
  rw [List.mem_filter, List.mem_range'_1, decide_eq_true_iff]
  omega

theorem windowHosts_increasing (l first last : Nat) :
    (windowHosts l first last).Pairwise (· < ·) :=
  (List.pairwise_lt_range' 1 (by omega)).filter _

/-- **The addresses of one subnet.** -/
theorem enumerateSubnet_spec {address : IPAddress} (hprivate : isPrivate address = true)
    {ipv4Mask : IPAddress} {k : Nat} (hk : 2 ≤ k) (hk' : k ≤ 32)
    (hmask : (~~~(toUInt32 ipv4Mask)).toNat = 2 ^ k - 1) :
    ∃ first last : UInt32,
      Window (toUInt32 address &&& toUInt32 ipv4Mask).toNat
        ((toUInt32 address &&& toUInt32 ipv4Mask) ||| ~~~(toUInt32 ipv4Mask)).toNat
        (toUInt32 address).toNat first.toNat last.toNat ∧
      subnetWindow checkedAdd checkedSub (toUInt32 address) (toUInt32 ipv4Mask) =
        some (first, last) ∧
      last.toNat + 1 < 2 ^ 32 ∧
      (enumerateSubnet address ipv4Mask).map (fun a => (toUInt32 a).toNat) =
        windowHosts (toUInt32 address).toNat first.toNat last.toNat := by
  obtain ⟨hlow, hhigh⟩ := isPrivate_bounds hprivate
  have hhost : 2 ≤ (~~~(toUInt32 ipv4Mask)).toNat := by
    have : 2 ^ 2 ≤ 2 ^ k := Nat.pow_le_pow_right (by omega) hk
    omega
  obtain ⟨first, last, hwindow, hrun⟩ := subnetWindow_eq hlow hhigh hhost
  have hbroadcast : ((toUInt32 address &&& toUInt32 ipv4Mask) |||
      ~~~(toUInt32 ipv4Mask)).toNat < 2 ^ 32 := UInt32.toNat_lt _
  have hbelow := hwindow.below
  refine ⟨first, last, hwindow, hrun checkedAdd checkedSub ?_ ?_, by omega, ?_⟩
  · exact fun a b h => if_pos h
  · exact fun a b h => if_pos (UInt32.le_iff_toNat_le.mpr h)
  · have hscans := (scansMask_iff (toUInt32 ipv4Mask)).mpr ⟨k, hk, hk', hmask⟩
    have hplain := hrun (m := Id) (fun a b => pure (a + b)) (fun a b => pure (a - b))
      (fun _ _ _ => rfl) fun _ _ _ => rfl
    unfold enumerateSubnet windowHosts
    rw [if_pos hscans, hplain]
    change (walk _ last first).map _ = _
    rw [walk_eq, List.map_map]
    conv_rhs => rw [← List.map_id (List.filter _ _)]
    apply List.map_congr_left
    intro v hv
    have hv' : (first.toNat ≤ v ∧ v ≤ last.toNat) ∧ v ≠ (toUInt32 address).toNat :=
      mem_windowHosts.mp hv
    rw [Function.comp_apply, toUInt32_fromUInt32, UInt32.toNat_ofNat']
    exact Nat.mod_eq_of_lt (by omega)

/-! ## All adapters -/

/-- What was drawn from one enumerator, in order. -/
def drawnFrom (i : Nat) (drawn : List (Nat × IPAddress)) : List IPAddress :=
  (drawn.filter fun d => d.1 = i).map Prod.snd

theorem drawnFrom_concat (i : Nat) (drawn : List (Nat × IPAddress)) (number : Nat) (a : IPAddress) :
    drawnFrom i (drawn ++ [(number, a)]) =
      drawnFrom i drawn ++ if number = i then [a] else [] := by
  unfold drawnFrom
  rw [List.filter_append, List.map_append]
  by_cases h : number = i <;> simp [h]

theorem mem_drawnFrom {d : Nat × IPAddress} {drawn : List (Nat × IPAddress)} (h : d ∈ drawn) :
    d.2 ∈ drawnFrom d.1 drawn :=
  List.mem_map_of_mem (List.mem_filter.mpr ⟨h, by simp⟩)

/-- Among two adapters that have addresses left, neither was drawn more than once more often. -/
def Fair (hosts : List (List IPAddress)) (drawn : List (Nat × IPAddress)) : Prop :=
  ∀ i j, (drawnFrom i drawn).length < (hosts.getD i []).length →
    (drawnFrom j drawn).length < (hosts.getD j []).length →
    (drawnFrom i drawn).length ≤ (drawnFrom j drawn).length + 1

/-- **What drawing in turn comes to.**  Each adapter gives its addresses in their order, the draws
are fair at every moment, the results are the drawn addresses without repetitions, and drawing ends
only when there is no room or nothing is left. -/
structure FairDraw (hosts : List (List IPAddress)) (drawn : List (Nat × IPAddress))
    (results : List IPAddress) : Prop where
  ordered : ∀ i, drawnFrom i drawn <+: hosts.getD i []
  fair : ∀ p, p <+: drawn → Fair hosts p
  collected : results = (drawn.map Prod.snd).eraseDups
  capped : results.length ≤ maxDestinations
  whole : results.length = maxDestinations ∨ ∀ i, drawnFrom i drawn = hosts.getD i []

/-- In round number `r`, with the indices from `index` on done: an enumerator that is done was
drawn once more than one that is not, and one that is gone has nothing left. -/
structure Drawn (hosts : List (List IPAddress)) (r index : Nat) (s : Draw) : Prop where
  nodup : (s.candidates.map Prod.fst).Nodup
  ahead : ∀ j c, s.candidates[j]? = some c → j < index → (drawnFrom c.1 s.drawn).length = r
  behind : ∀ j c, s.candidates[j]? = some c → index ≤ j → (drawnFrom c.1 s.drawn).length = r + 1
  left : ∀ c ∈ s.candidates, drawnFrom c.1 s.drawn ++ c.2 = hosts.getD c.1 []
  gone : ∀ i, i ∉ s.candidates.map Prod.fst → drawnFrom i s.drawn = hosts.getD i []
  fair : ∀ p, p <+: s.drawn → Fair hosts p
  seen : s.seen = s.results.map toUInt32
  collected : s.results = (s.drawn.map Prod.snd).eraseDups
  distinct : s.seen.Nodup
  capped : s.results.length ≤ maxDestinations

section Draws

variable {hosts : List (List IPAddress)} {r index : Nat} {s : Draw}

/-- The counts of the candidates alone make the draws fair. -/
theorem fair_of_counts {candidates : List (Nat × List IPAddress)} {drawn : List (Nat × IPAddress)}
    (hcount : ∀ c ∈ candidates,
      (drawnFrom c.1 drawn).length = r ∨ (drawnFrom c.1 drawn).length = r + 1)
    (hgone : ∀ i, i ∉ candidates.map Prod.fst → drawnFrom i drawn = hosts.getD i []) :
    Fair hosts drawn := by
  intro i j hi hj
  have hround : ∀ i, (drawnFrom i drawn).length < (hosts.getD i []).length →
      (drawnFrom i drawn).length = r ∨ (drawnFrom i drawn).length = r + 1 := by
    intro i hi
    by_cases hmem : i ∈ candidates.map Prod.fst
    · obtain ⟨c, hc, rfl⟩ := List.mem_map.mp hmem
      exact hcount c hc
    · rw [hgone i hmem] at hi
      exact absurd hi (lt_irrefl _)
  have h1 := hround i hi
  have h2 := hround j hj
  omega

theorem Drawn.counts (h : Drawn hosts r index s) : ∀ c ∈ s.candidates,
    (drawnFrom c.1 s.drawn).length = r ∨ (drawnFrom c.1 s.drawn).length = r + 1 := by
  intro c hc
  obtain ⟨j, hj⟩ := List.mem_iff_getElem?.mp hc
  by_cases hlt : j < index
  · exact .inl (h.ahead j c hj hlt)
  · exact .inr (h.behind j c hj (by omega))

/-- What was drawn from an enumerator is the beginning of what it has. -/
theorem Drawn.ordered (h : Drawn hosts r index s) (i : Nat) :
    drawnFrom i s.drawn <+: hosts.getD i [] := by
  by_cases hmem : i ∈ s.candidates.map Prod.fst
  · obtain ⟨c, hc, rfl⟩ := List.mem_map.mp hmem
    exact ⟨c.2, h.left c hc⟩
  · rw [h.gone i hmem]

theorem Drawn.drawn_mem (h : Drawn hosts r index s) {d : Nat × IPAddress} (hd : d ∈ s.drawn) :
    d.2 ∈ hosts.getD d.1 [] :=
  (h.ordered d.1).subset (mem_drawnFrom hd)

theorem fst_inj_of_nodup {α : Type} {l : List (Nat × α)} (h : (l.map Prod.fst).Nodup) {i j : Nat}
    {a b : Nat × α} (hi : l[i]? = some a) (hj : l[j]? = some b) (heq : a.1 = b.1) : i = j := by
  have hi' : (l.map Prod.fst)[i]? = some a.1 := by rw [List.getElem?_map, hi, Option.map_some]
  have hj' : (l.map Prod.fst)[j]? = some b.1 := by rw [List.getElem?_map, hj, Option.map_some]
  obtain ⟨hlt, -⟩ := List.getElem?_eq_some_iff.mp hi'
  exact (List.getElem?_inj hlt h).mp (hi'.trans (heq ▸ hj'.symm))

/-- An exhausted enumerator is removed. -/
theorem drawn_erase (h : Drawn hosts r (index + 1) s) {number : Nat}
    (hsome : s.candidates[index]? = some (number, [])) :
    Drawn hosts r index { s with candidates := s.candidates.eraseIdx index } where
  nodup := h.nodup.sublist ((List.eraseIdx_sublist _ _).map Prod.fst)
  ahead j c hj hlt := by
    rw [List.getElem?_eraseIdx_of_lt hlt] at hj
    exact h.ahead j c hj (by omega)
  behind j c hj hge := by
    rw [List.getElem?_eraseIdx_of_ge hge] at hj
    exact h.behind (j + 1) c hj (by omega)
  left c hc := h.left c (List.mem_of_mem_eraseIdx hc)
  gone i hi := by
    by_cases hnumber : i = number
    · subst hnumber
      have := h.left (i, []) (List.mem_of_getElem? hsome)
      simpa using this
    · refine h.gone i fun hmem => hi ?_
      obtain ⟨c, hc, rfl⟩ := List.mem_map.mp hmem
      obtain ⟨j, hj⟩ := List.mem_iff_getElem?.mp hc
      have hne : j ≠ index := by
        rintro rfl
        rw [hsome] at hj
        cases hj
        exact hnumber rfl
      exact List.mem_map_of_mem (List.mem_eraseIdx_iff_getElem?.mpr ⟨j, hne, hj⟩)
  fair := h.fair
  seen := h.seen
  collected := h.collected
  distinct := h.distinct
  capped := h.capped

/-- The next address of an enumerator is drawn: what this changes in the results is left open. -/
theorem drawn_next (h : Drawn hosts r (index + 1) s) {number : Nat} {current : IPAddress}
    {rest : List IPAddress} (hsome : s.candidates[index]? = some (number, current :: rest))
    {s' : Draw} (hcandidates : s'.candidates = s.candidates.set index (number, rest))
    (hdrawn : s'.drawn = s.drawn ++ [(number, current)])
    (hseen : s'.seen = s'.results.map toUInt32)
    (hresults : s'.results = (s'.drawn.map Prod.snd).eraseDups) (hdistinct : s'.seen.Nodup)
    (hcapped : s'.results.length ≤ maxDestinations) : Drawn hosts r index s' := by
  obtain ⟨hindex, -⟩ := List.getElem?_eq_some_iff.mp hsome
  have hfst : s'.candidates.map Prod.fst = s.candidates.map Prod.fst := by
    rw [hcandidates, List.map_set]
    apply List.ext_getElem?
    intro j
    rw [List.getElem?_set]
    split
    · rename_i heq
      subst heq
      rw [if_pos (by simpa using hindex), List.getElem?_map, hsome, Option.map_some]
    · rfl
  have hself : drawnFrom number s'.drawn = drawnFrom number s.drawn ++ [current] := by
    rw [hdrawn, drawnFrom_concat, if_pos rfl]
  have hother : ∀ i, number ≠ i → drawnFrom i s'.drawn = drawnFrom i s.drawn := by
    intro i hne
    rw [hdrawn, drawnFrom_concat, if_neg hne, List.append_nil]
  have hmem : ∀ j c, s'.candidates[j]? = some c →
      (j = index ∧ c = (number, rest)) ∨
        (j ≠ index ∧ number ≠ c.1 ∧ s.candidates[j]? = some c) := by
    intro j c hj
    rw [hcandidates] at hj
    rcases Lib.getElem?_set_eq_some.mp hj with ⟨rfl, -, rfl⟩ | ⟨hne, hj⟩
    · exact .inl ⟨rfl, rfl⟩
    · exact .inr ⟨hne.symm, fun heq => hne (fst_inj_of_nodup h.nodup hsome hj heq), hj⟩
  have hahead := h.ahead index _ hsome (by omega)
  have hgone : ∀ i, i ∉ s'.candidates.map Prod.fst → drawnFrom i s'.drawn = hosts.getD i [] := by
    intro i hi
    rw [hfst] at hi
    have hne : number ≠ i := by
      rintro rfl
      exact hi (List.mem_map_of_mem (List.mem_of_getElem? hsome))
    rw [hother i hne]
    exact h.gone i hi
  have hcounts : ∀ c ∈ s'.candidates,
      (drawnFrom c.1 s'.drawn).length = r ∨ (drawnFrom c.1 s'.drawn).length = r + 1 := by
    intro c hc
    obtain ⟨j, hj⟩ := List.mem_iff_getElem?.mp hc
    rcases hmem j c hj with ⟨-, rfl⟩ | ⟨-, hne, hj⟩
    · right
      rw [hself, List.length_append, hahead]
      rfl
    · rw [hother c.1 hne]
      exact h.counts c (List.mem_of_getElem? hj)
  refine ⟨hfst ▸ h.nodup, fun j c hj hlt => ?_, fun j c hj hge => ?_, fun c hc => ?_, hgone,
    fun p hp => ?_, hseen, hresults, hdistinct, hcapped⟩
  · rcases hmem j c hj with ⟨rfl, -⟩ | ⟨-, hne, hj⟩
    · omega
    · rw [hother c.1 hne]
      exact h.ahead j c hj (by omega)
  · rcases hmem j c hj with ⟨-, rfl⟩ | ⟨hindex, hne, hj⟩
    · rw [hself, List.length_append, hahead]
      rfl
    · rw [hother c.1 hne]
      exact h.behind j c hj (by omega)
  · obtain ⟨j, hj⟩ := List.mem_iff_getElem?.mp hc
    rcases hmem j c hj with ⟨-, rfl⟩ | ⟨-, hne, hj⟩
    · have hleft := h.left _ (List.mem_of_getElem? hsome)
      rw [hself, List.append_assoc]
      exact hleft
    · rw [hother c.1 hne]
      exact h.left c (List.mem_of_getElem? hj)
  · rw [hdrawn] at hp
    rcases List.prefix_concat_iff.mp hp with rfl | hp
    · exact hdrawn ▸ fair_of_counts hcounts hgone
    · exact h.fair p hp

/-- The addresses of the adapters are told apart by their numbers. -/
def Numbered (hosts : List (List IPAddress)) : Prop :=
  ∀ i, ∀ a ∈ hosts.getD i [], fromUInt32 (toUInt32 a) = a

theorem drawn_probe (hnumbered : Numbered hosts) (h : Drawn hosts r (index + 1) s)
    (hroom : s.results.length < maxDestinations) : Drawn hosts r index (s.probe index) := by
  unfold Draw.probe
  split
  · rename_i hnone
    refine { h with
      ahead := fun j c hj hlt => h.ahead j c hj (by omega)
      behind := fun j c hj hge => ?_ }
    have hne : j ≠ index := by
      rintro rfl
      rw [hnone] at hj
      cases hj
    exact h.behind j c hj (by omega)
  · rename_i number hsome
    exact drawn_erase h hsome
  · rename_i number current rest hsome
    have hcurrent : fromUInt32 (toUInt32 current) = current := by
      refine hnumbered number current ?_
      rw [← h.left _ (List.mem_of_getElem? hsome)]
      exact List.mem_append_right _ (List.mem_cons_self ..)
    -- The set of numbers and the list of results see the same repetitions.
    have hseen : toUInt32 current ∈ s.seen ↔ current ∈ s.drawn.map Prod.snd := by
      rw [h.seen, List.mem_map, ← List.mem_eraseDups, ← h.collected]
      constructor
      · rintro ⟨a, ha, heq⟩
        obtain ⟨d, hd, rfl⟩ := List.mem_map.mp (List.mem_eraseDups.mp (h.collected ▸ ha))
        rw [← hcurrent, ← heq, hnumbered d.1 d.2 (h.drawn_mem hd)]
        exact ha
      · exact fun ha => ⟨current, ha, rfl⟩
    simp only
    split
    · rename_i hold
      refine drawn_next h hsome rfl rfl h.seen ?_ h.distinct h.capped
      rw [List.map_append, List.eraseDups_append, h.collected]
      have hmem := hseen.mp hold
      simp [List.removeAll, hmem]
    · rename_i hnew
      have hmem := mt hseen.mpr hnew
      refine drawn_next h hsome rfl rfl ?_ ?_ ?_ ?_
      · simp [h.seen]
      · rw [List.map_append, List.eraseDups_append, h.collected]
        simp [List.removeAll, hmem, List.eraseDups_cons]
      · rw [List.nodup_append]
        exact ⟨h.distinct, List.nodup_singleton _, fun a ha b hb heq => by
          rw [List.mem_singleton] at hb
          exact hnew (hb ▸ heq ▸ ha)⟩
      · simp only [List.length_append, List.length_singleton]
        omega

/-- A round ends with all indices done, or because there is no room. -/
theorem drawn_round (hnumbered : Numbered hosts) (n : Nat) {s : Draw} (h : Drawn hosts r n s) :
    Drawn hosts r 0 (s.round n) ∨
      ∃ k, Drawn hosts r k (s.round n) ∧ ¬(s.round n).results.length < maxDestinations := by
  induction n generalizing s with
  | zero => exact .inl h
  | succ index ih =>
    unfold Draw.round
    split
    · rename_i hroom
      exact ih (drawn_probe hnumbered h hroom)
    · rename_i hroom
      exact .inr ⟨index + 1, h, hroom⟩

/-- Every index is done: the next round starts. -/
theorem drawn_next_round (h : Drawn hosts r 0 s) : Drawn hosts (r + 1) s.candidates.length s :=
  { h with
    ahead := fun j c hj _ => h.behind j c hj (Nat.zero_le _)
    behind := fun j c hj hge => by
      have := (List.getElem?_eq_some_iff.mp hj).1
      omega }

/-- The loop ends because there is no room or because every enumerator is gone. -/
theorem drawn_all (hnumbered : Numbered hosts) {s : Draw}
    (h : Drawn hosts r s.candidates.length s) :
    ∃ r' k, Drawn hosts r' k s.all ∧
      (s.all.candidates = [] ∨ ¬s.all.results.length < maxDestinations) := by
  induction s using Draw.all.induct generalizing r with
  | case1 s hmore ih =>
    rw [Draw.all, dif_pos hmore]
    rcases drawn_round hnumbered s.candidates.length h with hround | ⟨k, hround, hfull⟩
    · exact ih (drawn_next_round hround)
    · rw [Draw.all, dif_neg fun hcontra => hfull hcontra.2]
      exact ⟨r, k, hround, .inr hfull⟩
  | case2 s hdone =>
    rw [Draw.all, dif_neg hdone]
    refine ⟨r, _, h, ?_⟩
    by_cases hempty : s.candidates = []
    · exact .inl hempty
    · exact .inr fun hroom => hdone ⟨hempty, hroom⟩

end Draws

/-- Before the first round. -/
theorem drawn_start (hosts : List (List IPAddress)) :
    Drawn hosts 0 (hosts.zipIdx.map fun c => (c.2, c.1)).length
      { candidates := hosts.zipIdx.map fun c => (c.2, c.1) } := by
  have hget : ∀ j (c : Nat × List IPAddress), (hosts.zipIdx.map fun c => (c.2, c.1))[j]? = some c →
      c.1 = j ∧ hosts[j]? = some c.2 := by
    intro j c hj
    rw [List.getElem?_map, List.getElem?_zipIdx, Option.map_map, Option.map_eq_some_iff] at hj
    obtain ⟨list, hlist, rfl⟩ := hj
    exact ⟨by simp, hlist⟩
  have hfst : (hosts.zipIdx.map fun c => (c.2, c.1)).map Prod.fst = List.range hosts.length := by
    rw [List.map_map,
      show Prod.fst ∘ (fun c : List IPAddress × Nat => (c.2, c.1)) = Prod.snd from rfl,
      List.zipIdx_map_snd, List.range_eq_range']
  refine ⟨?_, fun _ _ _ _ => rfl, fun j c hj hge => ?_, fun c hc => ?_, fun i hi => ?_,
    fun p hp => ?_, rfl, rfl, List.nodup_nil, Nat.zero_le _⟩
  · rw [hfst]
    exact List.nodup_range
  · have := (List.getElem?_eq_some_iff.mp hj).1
    simp only at hge this
    omega
  · obtain ⟨j, hj⟩ := List.mem_iff_getElem?.mp hc
    obtain ⟨hc1, hlist⟩ := hget j c hj
    rw [hc1, List.getD_eq_getElem?_getD, hlist]
    rfl
  · rw [hfst, List.mem_range] at hi
    rw [List.getD_eq_getElem?_getD, List.getElem?_eq_none (by omega)]
    rfl
  · rw [List.prefix_nil.mp hp]
    intro i j _ _
    simp [drawnFrom]

/-- **Drawing in turn**, from any enumerators. -/
theorem drawDestinations_spec {hosts : List (List IPAddress)} (hnumbered : Numbered hosts) :
    FairDraw hosts (drawDestinations hosts).drawn (drawDestinations hosts).results ∧
      ((drawDestinations hosts).results.map toUInt32).Nodup := by
  obtain ⟨r, k, hdrawn, hend⟩ :=
    drawn_all (s := ⟨hosts.zipIdx.map fun c => (c.2, c.1), [], [], []⟩) hnumbered
      (drawn_start hosts)
  refine ⟨⟨hdrawn.ordered, hdrawn.fair, hdrawn.collected, hdrawn.capped, ?_⟩,
    hdrawn.seen ▸ hdrawn.distinct⟩
  rcases hend with hempty | hfull
  · refine .inr fun i => hdrawn.gone i ?_
    rw [hempty]
    exact List.not_mem_nil
  · exact .inl (le_antisymm hdrawn.capped (Nat.le_of_not_lt hfull))

/-! ## The eligible adapters -/

/-- An adapter that is scanned. -/
def DiscoverySubnet.eligible (subnet : DiscoverySubnet) : Bool :=
  shouldScanInterface subnet.interfaceType subnet.name subnet.description &&
    isPrivate subnet.address

theorem enumerateSubnet_numbered {address ipv4Mask a : IPAddress}
    (h : a ∈ enumerateSubnet address ipv4Mask) : fromUInt32 (toUInt32 a) = a := by
  have hwalk : ∀ l last first, a ∈ walk l last first → fromUInt32 (toUInt32 a) = a := by
    intro l last first ha
    rw [walk_eq] at ha
    obtain ⟨v, -, rfl⟩ := List.mem_map.mp ha
    rw [toUInt32_fromUInt32]
  unfold enumerateSubnet at h
  split at h
  · exact hwalk _ _ _ h
  · cases h

theorem adapterHosts_perm (subnets : List DiscoverySubnet) :
    (adapterHosts subnets).Perm ((subnets.filter DiscoverySubnet.eligible).map fun subnet =>
      enumerateSubnet subnet.address subnet.mask) :=
  (List.mergeSort_perm _ _).map _

theorem getD_adapterHosts {subnets : List DiscoverySubnet} {i : Nat} {a : IPAddress}
    (h : a ∈ (adapterHosts subnets).getD i []) :
    ∃ subnet ∈ subnets, subnet.eligible = true ∧
      a ∈ enumerateSubnet subnet.address subnet.mask := by
  rw [List.getD_eq_getElem?_getD] at h
  cases hi : (adapterHosts subnets)[i]? with
  | none =>
    rw [hi] at h
    cases h
  | some list =>
    rw [hi] at h
    have hlist := (adapterHosts_perm subnets).mem_iff.mp (List.mem_of_getElem? hi)
    obtain ⟨subnet, hsubnet, rfl⟩ := List.mem_map.mp hlist
    obtain ⟨hmem, heligible⟩ := List.mem_filter.mp hsubnet
    exact ⟨subnet, hmem, heligible, h⟩

theorem adapterHosts_numbered (subnets : List DiscoverySubnet) : Numbered
    (adapterHosts subnets) := by
  intro i a ha
  obtain ⟨subnet, -, -, hmem⟩ := getD_adapterHosts ha
  exact enumerateSubnet_numbered hmem

section Results

variable {subnets : List DiscoverySubnet} {a : IPAddress}

/-- Every destination is an address of an eligible adapter. -/
theorem FairDraw.sound {drawn : List (Nat × IPAddress)} {results : List IPAddress}
    (h : FairDraw (adapterHosts subnets) drawn results) (ha : a ∈ results) :
    ∃ subnet ∈ subnets, subnet.eligible = true ∧
      a ∈ enumerateSubnet subnet.address subnet.mask := by
  rw [h.collected, List.mem_eraseDups] at ha
  obtain ⟨d, hd, rfl⟩ := List.mem_map.mp ha
  exact getD_adapterHosts ((h.ordered d.1).subset (mem_drawnFrom hd))

/-- While there is room, every address of an eligible adapter is a destination. -/
theorem FairDraw.complete {drawn : List (Nat × IPAddress)} {results : List IPAddress}
    (h : FairDraw (adapterHosts subnets) drawn results) (hroom : results.length < maxDestinations)
    {subnet : DiscoverySubnet} (hsubnet : subnet ∈ subnets) (heligible : subnet.eligible = true)
    (ha : a ∈ enumerateSubnet subnet.address subnet.mask) : a ∈ results := by
  have hmem := (adapterHosts_perm subnets).mem_iff.mpr
    (List.mem_map_of_mem (List.mem_filter.mpr ⟨hsubnet, heligible⟩))
  obtain ⟨i, hi⟩ := List.mem_iff_getElem?.mp hmem
  have hall := h.whole.resolve_left (Nat.ne_of_lt hroom) i
  rw [List.getD_eq_getElem?_getD, hi] at hall
  have hdrawn : a ∈ drawnFrom i drawn := hall ▸ ha
  obtain ⟨d, hd, rfl⟩ := List.mem_map.mp hdrawn
  rw [h.collected, List.mem_eraseDups]
  exact List.mem_map_of_mem (List.mem_of_mem_filter hd)

end Results

/-- **The targets of a scan.**  A subnet whose mask is contiguous with at least two host bits is
scanned in a window of at most `maxDestinations` addresses around the local one, computed without
wrapping around, in increasing order and without the local address; other masks give nothing.  The
destinations are drawn in turn from the addresses of all eligible adapters (`FairDraw`): at every
moment two adapters that are not exhausted have been drawn from equally often, up to one, the
results are the drawn addresses, each once and at most `maxDestinations`, and below that number they
are all addresses of the eligible adapters. -/
theorem discovery_targets :
    (∀ address ipv4Mask, isPrivate address = true →
      let l := toUInt32 address
      let mask := toUInt32 ipv4Mask
      let network := l &&& mask
      let broadcast := network ||| ~~~mask
      ((¬∃ k, 2 ≤ k ∧ k ≤ 32 ∧ (~~~mask).toNat = 2 ^ k - 1) →
        enumerateSubnet address ipv4Mask = []) ∧
      ((∃ k, 2 ≤ k ∧ k ≤ 32 ∧ (~~~mask).toNat = 2 ^ k - 1) →
        ∃ first last : UInt32,
          Window network.toNat broadcast.toNat l.toNat first.toNat last.toNat ∧
          subnetWindow checkedAdd checkedSub l mask = some (first, last) ∧
          last.toNat + 1 < 2 ^ 32 ∧
          (enumerateSubnet address ipv4Mask).map (fun a => (toUInt32 a).toNat) =
            windowHosts l.toNat first.toNat last.toNat ∧
          (windowHosts l.toNat first.toNat last.toNat).Pairwise (· < ·) ∧
          ∀ v ∈ windowHosts l.toNat first.toNat last.toNat,
            network.toNat < v ∧ v < broadcast.toNat ∧ v ≠ l.toNat)) ∧
    ∀ subnets,
      let hosts := adapterHosts subnets
      hosts.Perm ((subnets.filter DiscoverySubnet.eligible).map fun subnet =>
        enumerateSubnet subnet.address subnet.mask) ∧
      FairDraw hosts (drawDestinations hosts).drawn (enumerateDestinations subnets) ∧
      (enumerateDestinations subnets).length ≤ maxDestinations ∧
      (enumerateDestinations subnets).Nodup ∧
      (∀ a ∈ enumerateDestinations subnets, ∃ subnet ∈ subnets, subnet.eligible = true ∧
        a ∈ enumerateSubnet subnet.address subnet.mask) ∧
      ((enumerateDestinations subnets).length < maxDestinations →
        ∀ subnet ∈ subnets, subnet.eligible = true →
          enumerateSubnet subnet.address subnet.mask ⊆ enumerateDestinations subnets) := by
  refine ⟨fun address ipv4Mask hprivate => ⟨fun hmask => ?_, fun hmask => ?_⟩, fun subnets => ?_⟩
  · unfold enumerateSubnet
    rw [if_neg fun hscans => hmask ((scansMask_iff _).mp hscans)]
  · obtain ⟨k, hk, hk', hmask⟩ := hmask
    obtain ⟨first, last, hwindow, hchecked, hlast, hhosts⟩ :=
      enumerateSubnet_spec hprivate hk hk' hmask
    refine ⟨first, last, hwindow, hchecked, hlast, hhosts, windowHosts_increasing _ _ _,
      fun v hv => ?_⟩
    have hin := mem_windowHosts.mp hv
    have habove := hwindow.above
    have hbelow := hwindow.below
    exact ⟨by omega, by omega, hin.2⟩
  · obtain ⟨hdraw, hdistinct⟩ := drawDestinations_spec (adapterHosts_numbered subnets)
    exact ⟨adapterHosts_perm subnets, hdraw, hdraw.capped, hdistinct.of_map,
      fun a ha => hdraw.sound ha,
      fun hroom subnet hsubnet heligible a ha => hdraw.complete hroom hsubnet heligible ha⟩

/-! ## Three adapters -/

def homeSubnet : DiscoverySubnet :=
  ⟨[192, 168, 1, 10], [255, 255, 255, 0], .wireless80211, "Wi-Fi", "adapter", true⟩

/-- A subnet with a single other host. -/
def linkSubnet : DiscoverySubnet :=
  ⟨[10, 0, 0, 9], [255, 255, 255, 252], .ethernet, "Ethernet", "adapter", false⟩

def tunnelSubnet : DiscoverySubnet :=
  ⟨[10, 8, 0, 2], [255, 255, 255, 0], .other 53, "VPN", "WireGuard Tunnel", false⟩

/-- A window without its local address, when both ends are known. -/
theorem windowHosts_of_window {network broadcast l first last : Nat}
    (h : Window network broadcast l first last)
    (hsize : broadcast - network - 1 ≤ maxDestinations) :
    windowHosts l first last = windowHosts l (network + 1) (broadcast - 1) := by
  have habove := h.above
  have hbelow := h.below
  have hnonempty := h.nonempty
  have hcount := h.size
  rw [Nat.min_eq_left hsize] at hcount
  rw [show first = network + 1 by omega, show last = broadcast - 1 by omega]

theorem discovery_targets_three :
    (enumerateSubnet homeSubnet.address homeSubnet.mask).map (fun a => (toUInt32 a).toNat) =
      windowHosts 3232235786 3232235777 3232236030 ∧
    (enumerateSubnet linkSubnet.address linkSubnet.mask).map (fun a => (toUInt32 a).toNat) =
      [167772170] ∧
    enumerateSubnet homeSubnet.address [255, 0, 255, 0] = [] ∧
    (∀ a, a ∈ enumerateDestinations [homeSubnet, linkSubnet, tunnelSubnet] ↔
      a ∈ enumerateSubnet homeSubnet.address homeSubnet.mask ∨
        a ∈ enumerateSubnet linkSubnet.address linkSubnet.mask) ∧
    ∀ p, p <+: (drawDestinations (adapterHosts [homeSubnet, linkSubnet, tunnelSubnet])).drawn →
      Fair (adapterHosts [homeSubnet, linkSubnet, tunnelSubnet]) p := by
  obtain ⟨first, last, hwindow, -, -, hhome, -⟩ :=
    (discovery_targets.1 homeSubnet.address homeSubnet.mask (by decide)).2 ⟨8, by decide⟩
  obtain ⟨first', last', hwindow', -, -, hlink, -⟩ :=
    (discovery_targets.1 linkSubnet.address linkSubnet.mask (by decide)).2 ⟨2, by decide⟩
  rw [windowHosts_of_window hwindow (by decide)] at hhome
  rw [windowHosts_of_window hwindow' (by decide)] at hlink
  obtain ⟨-, hdraw, -, hnodup, hsound, hcomplete⟩ :=
    discovery_targets.2 [homeSubnet, linkSubnet, tunnelSubnet]
  have hsub : ∀ a ∈ enumerateDestinations [homeSubnet, linkSubnet, tunnelSubnet],
      a ∈ enumerateSubnet homeSubnet.address homeSubnet.mask ++
        enumerateSubnet linkSubnet.address linkSubnet.mask := by
    intro a ha
    obtain ⟨subnet, hsubnet, heligible, hmem⟩ := hsound a ha
    have htunnel : tunnelSubnet.eligible = false := by decide
    simp only [List.mem_cons, List.not_mem_nil, or_false] at hsubnet
    rcases hsubnet with rfl | rfl | rfl
    · exact List.mem_append_left _ hmem
    · exact List.mem_append_right _ hmem
    · rw [htunnel] at heligible
      cases heligible
  have hroom : (enumerateDestinations [homeSubnet, linkSubnet, tunnelSubnet]).length <
      maxDestinations := by
    have hle := (List.subperm_of_subset hnodup hsub).length_le
    have hcount := congrArg List.length hhome
    have hcount' := congrArg List.length hlink
    rw [List.length_map] at hcount hcount'
    rw [List.length_append, hcount, hcount'] at hle
    exact hle.trans_lt (by decide +kernel)
  refine ⟨hhome, ?_, ?_, fun a => ?_, hdraw.fair⟩
  · rw [hlink]
    decide
  · exact (discovery_targets.1 homeSubnet.address [255, 0, 255, 0] (by decide)).1
      (mt (scansMask_iff _).mpr (by decide))
  · constructor
    · exact fun ha => List.mem_append.mp (hsub a ha)
    · rintro (ha | ha)
      · exact hcomplete hroom homeSubnet (by simp) (by decide) ha
      · exact hcomplete hroom linkSubnet (by simp) (by decide) ha

end Discovery

end LocalMediaTransfer
