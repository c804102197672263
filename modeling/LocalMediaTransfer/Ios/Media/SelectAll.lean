import Mathlib.Tactic
import LocalMediaTransfer.Ios.Media.MediaSelection

/-!
# Loaded IDs, the list on screen and "select all"

A "select all" marks the assets of a page as loaded when the page arrives and shows them when the
last page has arrived.  In between the loaded IDs are ahead of the list.

* `ViewInv` — what holds between any two steps: a loaded ID is on screen or in the list of a
  "select all" that still runs, and the pages that are left cover the rest of the album.
* `select_all_intact` — in every run in which no "select all" fails after it listed a new asset,
  the list on screen is what is loaded, and every completed "select all" selects the album.
* `select_all_loses_page` — the failure of the second of two pages.
-/

set_option autoImplicit false

namespace LocalMediaTransfer

open Lib

namespace MediaView

variable {s : MediaView} {loaded : List String}

/-! ## A page -/

theorem mem_takeNew (assets : List MediaAsset) (id : String) :
    id ∈ (takeNew loaded assets).1 ↔ id ∈ loaded ∨ id ∈ ids assets := by
  induction assets generalizing loaded with
  | nil => simp [takeNew, ids]
  | cons asset rest ih =>
    unfold takeNew
    split
    · rename_i hmem
      rw [ih]
      simp only [ids, List.map_cons, List.mem_cons]
      constructor
      · rintro (h | h)
        · exact Or.inl h
        · exact Or.inr (Or.inr h)
      · rintro (h | rfl | h)
        · exact Or.inl h
        · exact Or.inl hmem
        · exact Or.inr h
    · simp only [ih, ids, List.mem_append, List.map_cons, List.mem_cons, List.not_mem_nil, or_false]
      tauto

theorem mem_takeNew_additions (assets : List MediaAsset) (id : String) :
    id ∈ (takeNew loaded assets).1 ↔ id ∈ loaded ∨ id ∈ ids (takeNew loaded assets).2 := by
  induction assets generalizing loaded with
  | nil => simp [takeNew, ids]
  | cons asset rest ih =>
    unfold takeNew
    split
    · exact ih
    · simp only [ih, ids, List.mem_append, List.map_cons, List.mem_cons, List.not_mem_nil, or_false]
      tauto

theorem takeNew_fresh (assets : List MediaAsset) {id : String}
    (h : id ∈ ids (takeNew loaded assets).2) : id ∉ loaded := by
  induction assets generalizing loaded with
  | nil => cases h
  | cons asset rest ih =>
    unfold takeNew at h
    split at h
    · exact ih h
    · rename_i hnew
      simp only [ids, List.map_cons, List.mem_cons] at h
      rcases h with rfl | h
      · exact hnew
      · exact fun hmem => ih h (List.mem_append_left _ hmem)

theorem takeNew_nodup (assets : List MediaAsset) : (ids (takeNew loaded assets).2).Nodup := by
  induction assets generalizing loaded with
  | nil => exact List.nodup_nil
  | cons asset rest ih =>
    unfold takeNew
    split
    · exact ih
    · refine List.nodup_cons.mpr ⟨fun hmem => ?_, ih⟩
      exact takeNew_fresh rest hmem (by simp)

/-! ## Calls that wait -/

/-- Call number `i` belongs to the current operation and waits for a page. -/
def Waits (s : MediaView) (i : Nat) (kind : MediaCallKind) : Prop :=
  s.calls i = some (s.call kind)

/-- No call of the current operation waits. -/
def Quiet (s : MediaView) : Prop :=
  ∀ i call, s.calls i = some call → call.operation ≠ s.selectionOperationRef

/-- The list on screen is what is loaded, without repetition. -/
def Intact (s : MediaView) : Prop :=
  (∀ id, id ∈ s.loadedMediaIdsRef ↔ id ∈ ids s.media) ∧ (ids s.media).Nodup

/-- Every asset of the album is loaded or behind the cursor. -/
def Covers (library : Option String → PagedAlbum) (s : MediaView) (after : Option String) : Prop :=
  ∀ a ∈ (library s.selectedAlbum).assets,
    a.id ∈ s.loadedMediaIdsRef ∨ a ∈ (library s.selectedAlbum).behind after

/-- Everything behind the cursor is loaded. -/
def Exhausted (library : Option String → PagedAlbum) (s : MediaView)
    (after : Option String) : Prop :=
  ∀ a ∈ (library s.selectedAlbum).behind after, a.id ∈ s.loadedMediaIdsRef

/-- A list that has every loaded asset. -/
def ListsLoaded (s : MediaView) (list : List MediaAsset) : Prop :=
  ∀ id ∈ s.loadedMediaIdsRef, id ∈ ids list

/-- What a step has to meet: a "select all" fails only before it listed an asset that is not on
screen, and completes only with every loaded asset in its list; the first page does not fail, and
permission is not withdrawn, while assets are left to load. -/
def Admissible (library : Option String → PagedAlbum) (s : MediaView) : MediaAction → Prop
  | .selectAll =>
    s.renderedLoading = false → s.loadingMoreRef = false → s.hasNextPageRef = false →
      s.ListsLoaded s.renderedMedia
  | .answer i answer =>
    match answer with
    | .page => ∀ allMedia after, s.Waits i (.selectAll allMedia after) →
        ((library s.selectedAlbum).page after).hasNextPage = false → s.ListsLoaded allMedia
    | .denied =>
      (s.Waits i .fetchMedia → s.Exhausted library none) ∧
      (∀ after, s.Waits i (.loadMoreMedia after) → s.Exhausted library after) ∧
      ∀ allMedia after, s.Waits i (.selectAll allMedia after) →
        s.Exhausted library after ∧ s.ListsLoaded allMedia
    | .throws =>
      (s.Waits i .fetchMedia → s.Exhausted library none) ∧
      ∀ allMedia after, s.Waits i (.selectAll allMedia after) →
        ∀ id ∈ ids allMedia, id ∈ ids s.media
  | _ => True

theorem waits_await (hfresh : s.calls s.nextCall = none) (kind : MediaCallKind) {i : Nat}
    {k : MediaCallKind} :
    (s.await kind).Waits i k ↔ (i = s.nextCall ∧ k = kind) ∨ s.Waits i k := by
  unfold Waits await MediaView.call
  by_cases hi : i = s.nextCall
  · subst hi
    simp [hfresh, eq_comm]
  · simp [hi]

theorem waits_drop {i j : Nat} {k : MediaCallKind} :
    (s.drop i).Waits j k ↔ j ≠ i ∧ s.Waits j k := by
  unfold Waits drop MediaView.call
  by_cases hj : j = i
  · subst hj
    simp
  · simp [hj]

theorem Waits.kind_eq {i : Nat} {k k' : MediaCallKind} (h : s.Waits i k) (h' : s.Waits i k') :
    k = k' := by
  unfold Waits at h h'
  rw [h] at h'
  injection h' with h'
  injection h'

/-! ## The invariant -/

/-- Numbers of calls and of operations. -/
structure CallsInv (s : MediaView) : Prop where
  fresh : ∀ i, s.nextCall ≤ i → s.calls i = none
  older : ∀ i call, s.calls i = some call → call.operation ≤ s.selectionOperationRef
  album : ∀ i call, s.calls i = some call → call.operation = s.selectionOperationRef →
    call.albumId = s.selectedAlbum

/-- What holds between any two steps. -/
structure ViewInv (library : Option String → PagedAlbum) (s : MediaView) : Prop where
  nodup : (ids s.media).Nodup
  shown : ∀ id ∈ ids s.media, id ∈ s.loadedMediaIdsRef
  rendered : (ids s.renderedMedia).Nodup ∧ ∀ id ∈ ids s.renderedMedia, id ∈ s.loadedMediaIdsRef
  accounted : ∀ id ∈ s.loadedMediaIdsRef, id ∈ ids s.media ∨
    ∃ i allMedia after, s.Waits i (.selectAll allMedia after) ∧ id ∈ ids allMedia
  lists : ∀ i allMedia after, s.Waits i (.selectAll allMedia after) →
    (ids allMedia).Nodup ∧ (∀ id ∈ ids allMedia, id ∈ s.loadedMediaIdsRef) ∧ s.Covers library after
  pages : ∀ i after, s.Waits i (.loadMoreMedia after) → s.Covers library after
  fetching : ∀ i, s.Waits i .fetchMedia → s.renderedLoading = true ∧ s.loading = true ∧
    s.media = [] ∧ s.loadedMediaIdsRef = [] ∧ ∀ j k, s.Waits j k → j = i
  covered : (∀ i, ¬ s.Waits i .fetchMedia) → s.hasNextPageRef = true →
    s.Covers library s.pageCursorRef
  complete : (∀ i, ¬ s.Waits i .fetchMedia) → s.hasNextPageRef = false →
    ∀ a ∈ (library s.selectedAlbum).assets, a.id ∈ s.loadedMediaIdsRef
  busy : s.loading = true → ∃ i, s.Waits i .fetchMedia ∨
    ∃ allMedia after, s.Waits i (.selectAll allMedia after)
  busyMore : s.loadingMoreRef = true → ∃ i after, s.Waits i (.loadMoreMedia after)
  applied : ∀ e ∈ s.applied, ∀ a ∈ (library e.1).assets, a.id ∈ e.2

variable {library : Option String → PagedAlbum}

theorem CallsInv.of_eq (h : CallsInv s) {t : MediaView} (hcalls : t.calls = s.calls)
    (hnext : t.nextCall = s.nextCall)
    (hoperation : t.selectionOperationRef = s.selectionOperationRef)
    (halbum : t.selectedAlbum = s.selectedAlbum) : CallsInv t := by
  obtain ⟨hfresh, holder, hsame⟩ := h
  constructor
  · rw [hcalls, hnext]
    exact hfresh
  · rw [hcalls, hoperation]
    exact holder
  · rw [hcalls, hoperation, halbum]
    exact hsame

theorem CallsInv.await (h : CallsInv s) (kind : MediaCallKind) : CallsInv (s.await kind) := by
  refine ⟨fun i hi => ?_, fun i call hcall => ?_, fun i call hcall => ?_⟩
  · have hne : i ≠ s.nextCall := fun he => by
      rw [he] at hi
      exact absurd hi (Nat.not_succ_le_self _)
    have hlt : s.nextCall ≤ i := Nat.le_of_succ_le hi
    simpa [MediaView.await, hne] using h.fresh i hlt
  · by_cases hi : i = s.nextCall
    · subst hi
      simp only [MediaView.await, Function.update_self, Option.some.injEq] at hcall
      subst hcall
      exact Nat.le_refl _
    · refine h.older i call ?_
      simpa [MediaView.await, hi] using hcall
  · by_cases hi : i = s.nextCall
    · subst hi
      simp only [MediaView.await, Function.update_self, Option.some.injEq] at hcall
      subst hcall
      exact fun _ => rfl
    · refine h.album i call ?_
      simpa [MediaView.await, hi] using hcall

theorem CallsInv.drop (h : CallsInv s) (i : Nat) : CallsInv (s.drop i) := by
  have hback : ∀ j call, (s.drop i).calls j = some call → s.calls j = some call := by
    intro j call hcall
    by_cases hj : j = i
    · subst hj
      simp [MediaView.drop] at hcall
    · simpa [MediaView.drop, hj] using hcall
  refine ⟨fun j hj => ?_, fun j call hcall => ?_, fun j call hcall => ?_⟩
  · by_cases hji : j = i
    · simp [MediaView.drop, hji]
    · simpa [MediaView.drop, hji] using h.fresh j hj
  · exact h.older j call (hback j call hcall)
  · exact h.album j call (hback j call hcall)

/-! ## Steps that change no list -/

theorem ViewInv.no_fetch (h : ViewInv library s) (hrendered : s.renderedLoading = false) (i : Nat) :
    ¬ s.Waits i .fetchMedia := by
  intro hwaits
  have hloading := (h.fetching i hwaits).1
  rw [hrendered] at hloading
  cases hloading

/-- A new call waits for its first page. -/
theorem ViewInv.await (h : ViewInv library s) (hcalls : CallsInv s)
    (hno : ∀ i, ¬ s.Waits i .fetchMedia) {kind : MediaCallKind} (hkind : kind ≠ .fetchMedia)
    (hlist : ∀ allMedia after, kind = .selectAll allMedia after →
      (ids allMedia).Nodup ∧ (∀ id ∈ ids allMedia, id ∈ s.loadedMediaIdsRef) ∧
        s.Covers library after)
    (hpage : ∀ after, kind = .loadMoreMedia after → s.Covers library after) :
    ViewInv library (s.await kind) := by
  have hfresh := hcalls.fresh s.nextCall (Nat.le_refl _)
  have hkeep : ∀ {i k}, s.Waits i k → (s.await kind).Waits i k :=
    fun hw => (waits_await hfresh kind).mpr (Or.inr hw)
  have hnone : ∀ i, ¬ (s.await kind).Waits i .fetchMedia := by
    intro i hw
    rcases (waits_await hfresh kind).mp hw with ⟨-, hk⟩ | hw
    · exact hkind hk.symm
    · exact hno i hw
  refine ⟨h.nodup, h.shown, h.rendered, fun id hid => ?_, fun i allMedia after hw => ?_,
    fun i after hw => ?_, fun i hw => absurd hw (hnone i), fun _ => h.covered hno,
    fun _ => h.complete hno, fun hl => ?_, fun hm => ?_, h.applied⟩
  · exact (h.accounted id hid).imp_right fun ⟨i, allMedia, after, hw, hmem⟩ =>
      ⟨i, allMedia, after, hkeep hw, hmem⟩
  · rcases (waits_await hfresh kind).mp hw with ⟨-, hk⟩ | hw
    · exact hlist allMedia after hk.symm
    · exact h.lists i allMedia after hw
  · rcases (waits_await hfresh kind).mp hw with ⟨-, hk⟩ | hw
    · exact hpage after hk.symm
    · exact h.pages i after hw
  · obtain ⟨i, hw | ⟨allMedia, after, hw⟩⟩ := h.busy hl
    · exact ⟨i, Or.inl (hkeep hw)⟩
    · exact ⟨i, Or.inr ⟨allMedia, after, hkeep hw⟩⟩
  · obtain ⟨i, after, hw⟩ := h.busyMore hm
    exact ⟨i, after, hkeep hw⟩

theorem ViewInv.setLoading (h : ViewInv library s)
    (hbusy : ∃ i allMedia after, s.Waits i (.selectAll allMedia after)) :
    ViewInv library { s with loading := true } :=
  { h with
    fetching := fun i hw => by
      obtain ⟨hrendered, -, hrest⟩ := h.fetching i hw
      exact ⟨hrendered, rfl, hrest⟩
    busy := fun _ => hbusy.imp fun _ hw => Or.inr hw }

theorem ViewInv.setLoadingMore (h : ViewInv library s)
    (hbusy : ∃ i after, s.Waits i (.loadMoreMedia after)) :
    ViewInv library { s with loadingMoreRef := true, loadingMore := true } :=
  { h with busyMore := fun _ => hbusy }

/-- A call returns that is no fetch and has nothing listed that is not on screen. -/
theorem ViewInv.drop (h : ViewInv library s) {i : Nat} (hfetch : ¬ s.Waits i .fetchMedia)
    (hlist : ∀ allMedia after, s.Waits i (.selectAll allMedia after) →
      s.loading = false ∧ ∀ id ∈ ids allMedia, id ∈ ids s.media)
    (hmore : ∀ after, s.Waits i (.loadMoreMedia after) → s.loadingMoreRef = false) :
    ViewInv library (s.drop i) := by
  have hback : ∀ {j k}, (s.drop i).Waits j k → s.Waits j k := fun hw => (waits_drop.mp hw).2
  have hnone : (∀ j, ¬ (s.drop i).Waits j .fetchMedia) → ∀ j, ¬ s.Waits j .fetchMedia := by
    intro hno j hw
    refine hno j (waits_drop.mpr ⟨?_, hw⟩)
    rintro rfl
    exact hfetch hw
  refine ⟨h.nodup, h.shown, h.rendered, fun id hid => ?_, fun j allMedia after hw => ?_,
    fun j after hw => h.pages j after (hback hw), fun j hw => ?_, fun hno => h.covered (hnone hno),
    fun hno => h.complete (hnone hno), fun hl => ?_, fun hm => ?_, h.applied⟩
  · rcases h.accounted id hid with hmem | ⟨j, allMedia, after, hw, hmem⟩
    · exact Or.inl hmem
    · by_cases hj : j = i
      · subst hj
        exact Or.inl ((hlist allMedia after hw).2 id hmem)
      · exact Or.inr ⟨j, allMedia, after, waits_drop.mpr ⟨hj, hw⟩, hmem⟩
  · exact h.lists j allMedia after (hback hw)
  · obtain ⟨hrendered, hloading, hmedia, hloaded, honly⟩ := h.fetching j (hback hw)
    exact ⟨hrendered, hloading, hmedia, hloaded, fun j' k hw' => honly j' k (hback hw')⟩
  · obtain ⟨j, hw | ⟨allMedia, after, hw⟩⟩ := h.busy hl
    · refine ⟨j, Or.inl (waits_drop.mpr ⟨?_, hw⟩)⟩
      rintro rfl
      exact hfetch hw
    · refine ⟨j, Or.inr ⟨allMedia, after, waits_drop.mpr ⟨?_, hw⟩⟩⟩
      rintro rfl
      have hidle := (hlist allMedia after hw).1
      rw [show s.loading = true from hl] at hidle
      cases hidle
  · obtain ⟨j, after, hw⟩ := h.busyMore hm
    refine ⟨j, after, waits_drop.mpr ⟨?_, hw⟩⟩
    rintro rfl
    have hidle := hmore after hw
    rw [show s.loadingMoreRef = true from hm] at hidle
    cases hidle

theorem ViewInv.render (h : ViewInv library s) : ViewInv library s.render :=
  { h with
    rendered := ⟨h.nodup, h.shown⟩
    fetching := fun i hw => by
      obtain ⟨-, hloading, hrest⟩ := h.fetching i hw
      exact ⟨hloading, hloading, hrest⟩ }

theorem CallsInv.cleared (h : CallsInv s) (albumId : Option String) :
    CallsInv (s.cleared albumId) := by
  refine ⟨h.fresh, fun i call hcall => ?_, fun i call hcall he => ?_⟩
  · exact Nat.le_succ_of_le (h.older i call hcall)
  · have hle := h.older i call hcall
    have hnew : call.operation = s.selectionOperationRef + 1 := he
    omega

theorem waits_cleared (hcalls : CallsInv s) (albumId : Option String) (i : Nat)
    (k : MediaCallKind) :
    ¬ (s.cleared albumId).Waits i k :=
  fun hw => Nat.not_succ_le_self _ (hcalls.older i _ hw)

theorem waits_openAlbum (hcalls : CallsInv s) (albumId : Option String) {i : Nat}
    {k : MediaCallKind} :
    (s.openAlbum albumId).Waits i k ↔ i = s.nextCall ∧ k = .fetchMedia := by
  have hiff := waits_await (s := s.cleared albumId) (hcalls.fresh s.nextCall (Nat.le_refl _))
    .fetchMedia (i := i) (k := k)
  exact hiff.trans (or_iff_left (waits_cleared hcalls albumId i k))

theorem ViewInv.openAlbum (happlied : ∀ e ∈ s.applied, ∀ a ∈ (library e.1).assets, a.id ∈ e.2)
    (hcalls : CallsInv s) (albumId : Option String) : ViewInv library (s.openAlbum albumId) := by
  have hwaits := fun i k => waits_openAlbum (i := i) (k := k) hcalls albumId
  have hfetch : (s.openAlbum albumId).Waits s.nextCall .fetchMedia := (hwaits _ _).mpr ⟨rfl, rfl⟩
  have hempty : ∀ id : String, id ∉ ([] : List String) := fun _ h => by cases h
  constructor
  case nodup => exact List.nodup_nil
  case shown => exact fun id hid => absurd hid (hempty id)
  case rendered => exact ⟨List.nodup_nil, fun id hid => absurd hid (hempty id)⟩
  case accounted => exact fun id hid => absurd hid (hempty id)
  case lists =>
    intro i allMedia after hw
    cases ((hwaits _ _).mp hw).2
  case pages =>
    intro i after hw
    cases ((hwaits _ _).mp hw).2
  case fetching =>
    intro i hw
    refine ⟨rfl, rfl, rfl, rfl, fun j k hj => ?_⟩
    rw [((hwaits _ _).mp hw).1, ((hwaits _ _).mp hj).1]
  case covered => exact fun hno => absurd hfetch (hno _)
  case complete => exact fun hno => absurd hfetch (hno _)
  case busy => exact fun _ => ⟨s.nextCall, Or.inl hfetch⟩
  case busyMore =>
    intro hm
    cases hm
  case applied => exact happlied

/-! ## A page arrives -/

/-- What was behind the cursor is loaded, on the page, or behind its end. -/
def PageCovers (library : Option String → PagedAlbum) (s : MediaView) (after : Option String)
    (page : MediaPage) : Prop :=
  ∀ a ∈ (library s.selectedAlbum).behind after, a.id ∈ s.loadedMediaIdsRef ∨ a ∈ page.assets ∨
    (page.hasNextPage = true ∧ a ∈ (library s.selectedAlbum).behind page.endCursor)

theorem pageCovers_page (after : Option String) :
    s.PageCovers library after ((library s.selectedAlbum).page after) := by
  intro a ha
  rw [(library s.selectedAlbum).behind_page after, List.mem_append] at ha
  rcases ha with ha | ha
  · exact Or.inr (Or.inl ha)
  · split at ha
    · rename_i hnext
      exact Or.inr (Or.inr ⟨hnext, ha⟩)
    · cases ha

theorem pageCovers_denied {after : Option String} (h : s.Exhausted library after) :
    s.PageCovers library after { assets := [], hasNextPage := false } :=
  fun a ha => Or.inl (h a ha)

/-- Behind the page, or loaded with it. -/
theorem PageCovers.covers {after : Option String} {page : MediaPage}
    (hpage : s.PageCovers library after page) (hcovers : s.Covers library after) {a : MediaAsset}
    (ha : a ∈ (library s.selectedAlbum).assets) :
    a.id ∈ (takeNew s.loadedMediaIdsRef page.assets).1 ∨
      (page.hasNextPage = true ∧ a ∈ (library s.selectedAlbum).behind page.endCursor) := by
  rw [mem_takeNew]
  rcases hcovers a ha with hloaded | hbehind
  · exact Or.inl (Or.inl hloaded)
  · rcases hpage a hbehind with hloaded | hmem | hlater
    · exact Or.inl (Or.inl hloaded)
    · exact Or.inl (Or.inr (List.mem_map_of_mem hmem))
    · exact Or.inr hlater

theorem ids_append (l l' : List MediaAsset) : ids (l ++ l') = ids l ++ ids l' := List.map_append

theorem nodup_ids_takeNew {list : List MediaAsset} (hnodup : (ids list).Nodup)
    (hlisted : ∀ id ∈ ids list, id ∈ loaded) (assets : List MediaAsset) :
    (ids (list ++ (takeNew loaded assets).2)).Nodup := by
  rw [ids_append, List.nodup_append]
  refine ⟨hnodup, takeNew_nodup assets, ?_⟩
  rintro id hid id' hid' rfl
  exact takeNew_fresh assets hid' (hlisted id hid)

theorem ids_takeNew_loaded {list : List MediaAsset} (hlisted : ∀ id ∈ ids list, id ∈ loaded)
    (assets : List MediaAsset) :
    ∀ id ∈ ids (list ++ (takeNew loaded assets).2), id ∈ (takeNew loaded assets).1 := by
  intro id hid
  rw [ids_append, List.mem_append] at hid
  rw [mem_takeNew_additions]
  exact hid.imp_left (hlisted id)

/-- The first page. -/
theorem ViewInv.fetched (h : ViewInv library s) {i : Nat} (hw : s.Waits i .fetchMedia)
    {page : MediaPage} (hnodup : (ids page.assets).Nodup) (hpage : s.PageCovers library none page) :
    ViewInv library ((s.fetchAnswered (some page)).drop i) := by
  obtain ⟨-, -, -, hloaded, honly⟩ := h.fetching i hw
  have hidle : ∀ j k, ¬ ((s.fetchAnswered (some page)).drop i).Waits j k := by
    intro j k hj
    obtain ⟨hne, hj⟩ := waits_drop.mp hj
    exact hne (honly j k hj)
  have hmem : ∀ id, id ∈ (ids page.assets).foldl setAdd [] ↔ id ∈ ids page.assets := by
    intro id
    rw [mem_foldl_setAdd]
    simp
  have hcovers : ∀ a ∈ (library s.selectedAlbum).assets,
      a.id ∈ (ids page.assets).foldl setAdd [] ∨
        (page.hasNextPage = true ∧ a ∈ (library s.selectedAlbum).behind page.endCursor) := by
    intro a ha
    rw [← (library s.selectedAlbum).behind_start] at ha
    rw [hmem]
    rcases hpage a ha with hin | hin | hlater
    · rw [hloaded] at hin
      cases hin
    · exact Or.inl (List.mem_map_of_mem hin)
    · exact Or.inr hlater
  constructor
  case nodup => exact hnodup
  case shown => exact fun id hid => (hmem id).mpr hid
  case rendered =>
    refine ⟨h.rendered.1, fun id hid => ?_⟩
    have hin := h.rendered.2 id hid
    rw [hloaded] at hin
    cases hin
  case accounted => exact fun id hid => Or.inl ((hmem id).mp hid)
  case lists => exact fun j allMedia after hj => absurd hj (hidle j _)
  case pages => exact fun j after hj => absurd hj (hidle j _)
  case fetching => exact fun j hj => absurd hj (hidle j _)
  case covered =>
    intro _ hnext a ha
    exact (hcovers a ha).imp_right And.right
  case complete =>
    intro _ hnext a ha
    rcases hcovers a ha with hin | ⟨hlater, -⟩
    · exact hin
    · rw [show page.hasNextPage = false from hnext] at hlater
      cases hlater
  case busy =>
    intro hl
    cases hl
  case busyMore =>
    intro hm
    obtain ⟨j, after, hj⟩ := h.busyMore hm
    have hji := honly j _ hj
    subst hji
    cases hj.kind_eq hw
  case applied => exact h.applied

/-- The first page of an empty album fails. -/
theorem ViewInv.fetchFailed (h : ViewInv library s) {i : Nat} (hw : s.Waits i .fetchMedia)
    (hempty : s.Exhausted library none) :
    ViewInv library ((s.fetchAnswered none).drop i) := by
  obtain ⟨-, -, -, hloaded, honly⟩ := h.fetching i hw
  have hidle : ∀ j k, ¬ ((s.fetchAnswered none).drop i).Waits j k := by
    intro j k hj
    obtain ⟨hne, hj⟩ := waits_drop.mp hj
    exact hne (honly j k hj)
  have hall : ∀ a ∈ (library s.selectedAlbum).assets, a.id ∈ s.loadedMediaIdsRef := by
    intro a ha
    rw [← (library s.selectedAlbum).behind_start] at ha
    exact hempty a ha
  constructor
  case nodup => exact List.nodup_nil
  case shown =>
    intro id hid
    cases hid
  case rendered => exact h.rendered
  case accounted =>
    intro id hid
    have hin : id ∈ s.loadedMediaIdsRef := hid
    rw [hloaded] at hin
    cases hin
  case lists => exact fun j allMedia after hj => absurd hj (hidle j _)
  case pages => exact fun j after hj => absurd hj (hidle j _)
  case fetching => exact fun j hj => absurd hj (hidle j _)
  case covered => exact fun _ _ a ha => Or.inl (hall a ha)
  case complete => exact fun _ _ => hall
  case busy =>
    intro hl
    cases hl
  case busyMore =>
    intro hm
    obtain ⟨j, after, hj⟩ := h.busyMore hm
    have hji := honly j _ hj
    subst hji
    cases hj.kind_eq hw
  case applied => exact h.applied

/-- A further page. -/
theorem ViewInv.loadedMore (h : ViewInv library s) {i : Nat} {after : Option String}
    (hw : s.Waits i (.loadMoreMedia after)) {page : MediaPage}
    (hpage : s.PageCovers library after page) :
    ViewInv library (s.loadMoreAnswered (some page)) := by
  have hcovers := fun a ha => hpage.covers (h.pages i after hw) (a := a) ha
  have hmono : ∀ {id}, id ∈ s.loadedMediaIdsRef →
      id ∈ (takeNew s.loadedMediaIdsRef page.assets).1 :=
    fun hid => (mem_takeNew _ _).mpr (Or.inl hid)
  have hbefore : ∀ {cursor}, s.Covers library cursor →
      (s.loadMoreAnswered (some page)).Covers library cursor :=
    fun hcover a ha => (hcover a ha).imp_left hmono
  constructor
  case nodup => exact nodup_ids_takeNew h.nodup h.shown page.assets
  case shown => exact ids_takeNew_loaded h.shown page.assets
  case rendered => exact ⟨h.rendered.1, fun id hid => hmono (h.rendered.2 id hid)⟩
  case accounted =>
    intro id hid
    rcases (mem_takeNew_additions page.assets id).mp hid with hid | hid
    · refine (h.accounted id hid).imp_left fun hshown => ?_
      exact (ids_append ..) ▸ List.mem_append_left _ hshown
    · exact Or.inl ((ids_append ..) ▸ List.mem_append_right _ hid)
  case lists =>
    intro j allMedia cursor hj
    obtain ⟨hnodup, hlisted, hcover⟩ := h.lists j allMedia cursor hj
    exact ⟨hnodup, fun id hid => hmono (hlisted id hid), hbefore hcover⟩
  case pages => exact fun j cursor hj => hbefore (h.pages j cursor hj)
  case fetching =>
    intro j hj
    have hij := (h.fetching j hj).2.2.2.2 i _ hw
    subst hij
    cases hw.kind_eq hj
  case covered => exact fun _ _ a ha => (hcovers a ha).imp_right And.right
  case complete =>
    intro _ hnext a ha
    rcases hcovers a ha with hin | ⟨hlater, -⟩
    · exact hin
    · rw [show page.hasNextPage = false from hnext] at hlater
      cases hlater
  case busy => exact h.busy
  case busyMore =>
    intro hm
    cases hm
  case applied => exact h.applied

theorem ViewInv.loadMoreFailed (h : ViewInv library s) :
    ViewInv library (s.loadMoreAnswered none) :=
  { h with
    busyMore := fun hm => by cases hm }

/-! ## Select all -/

theorem CallsInv.resume (h : CallsInv s) {i : Nat} {k : MediaCallKind} (hw : s.Waits i k)
    (kind : MediaCallKind) : CallsInv (s.resume i (s.call k) kind) := by
  have hback : ∀ {j call}, j ≠ i → (s.resume i (s.call k) kind).calls j = some call →
      s.calls j = some call :=
    fun hj hcall => by simpa [MediaView.resume, hj] using hcall
  refine ⟨fun j hj => ?_, fun j call hcall => ?_, fun j call hcall => ?_⟩
  · have hji : j ≠ i := by
      rintro rfl
      have hnone := h.fresh j hj
      unfold Waits at hw
      rw [hnone] at hw
      cases hw
    simpa [MediaView.resume, hji] using h.fresh j hj
  · by_cases hj : j = i
    · subst hj
      simp only [MediaView.resume, Function.update_self, Option.some.injEq] at hcall
      subst hcall
      exact Nat.le_refl _
    · exact h.older j call (hback hj hcall)
  · by_cases hj : j = i
    · subst hj
      simp only [MediaView.resume, Function.update_self, Option.some.injEq] at hcall
      subst hcall
      exact fun _ => rfl
    · exact h.album j call (hback hj hcall)

/-- The state between two requests of a "select all", with what the last page brought. -/
def listed (s : MediaView) (i : Nat) (allMedia : List MediaAsset) (after : Option String)
    (page : MediaPage) : MediaView :=
  { s with loadedMediaIdsRef := (takeNew s.loadedMediaIdsRef page.assets).1 }.resume i
    (s.call (.selectAll allMedia after))
    (.selectAll (allMedia ++ (takeNew s.loadedMediaIdsRef page.assets).2) page.endCursor)

theorem waits_listed {i j : Nat} {allMedia : List MediaAsset} {after : Option String}
    {page : MediaPage} {k : MediaCallKind} :
    (s.listed i allMedia after page).Waits j k ↔
      (j = i ∧ k =
        .selectAll (allMedia ++ (takeNew s.loadedMediaIdsRef page.assets).2) page.endCursor) ∨
      (j ≠ i ∧ s.Waits j k) := by
  unfold Waits listed MediaView.resume MediaView.call
  by_cases hj : j = i
  · subst hj
    simp [eq_comm]
  · simp [hj]

theorem ViewInv.listed (h : ViewInv library s) {i : Nat} {allMedia : List MediaAsset}
    {after : Option String} (hw : s.Waits i (.selectAll allMedia after)) {page : MediaPage}
    (hpage : s.PageCovers library after page) :
    ViewInv library (s.listed i allMedia after page) := by
  obtain ⟨hnodup, hlisted, hcover⟩ := h.lists i allMedia after hw
  have hmono : ∀ {id}, id ∈ s.loadedMediaIdsRef →
      id ∈ (takeNew s.loadedMediaIdsRef page.assets).1 :=
    fun hid => (mem_takeNew _ _).mpr (Or.inl hid)
  have hbefore : ∀ {cursor}, s.Covers library cursor →
      (s.listed i allMedia after page).Covers library cursor :=
    fun hcover a ha => (hcover a ha).imp_left hmono
  have hnofetch : ∀ j, ¬ s.Waits j .fetchMedia := by
    intro j hj
    have hij := (h.fetching j hj).2.2.2.2 i _ hw
    subst hij
    cases hw.kind_eq hj
  constructor
  case nodup => exact h.nodup
  case shown => exact fun id hid => hmono (h.shown id hid)
  case rendered => exact ⟨h.rendered.1, fun id hid => hmono (h.rendered.2 id hid)⟩
  case accounted =>
    intro id hid
    rcases (mem_takeNew_additions page.assets id).mp hid with hid | hid
    · refine (h.accounted id hid).imp_right ?_
      rintro ⟨j, list, cursor, hj, hmem⟩
      by_cases hji : j = i
      · subst hji
        cases hw.kind_eq hj
        exact ⟨j, _, _, waits_listed.mpr (Or.inl ⟨rfl, rfl⟩),
          (ids_append ..) ▸ List.mem_append_left _ hmem⟩
      · exact ⟨j, list, cursor, waits_listed.mpr (Or.inr ⟨hji, hj⟩), hmem⟩
    · exact Or.inr ⟨i, _, _, waits_listed.mpr (Or.inl ⟨rfl, rfl⟩),
        (ids_append ..) ▸ List.mem_append_right _ hid⟩
  case lists =>
    intro j list cursor hj
    rcases waits_listed.mp hj with ⟨-, hk⟩ | ⟨-, hj⟩
    · cases hk
      refine ⟨nodup_ids_takeNew hnodup hlisted _, ids_takeNew_loaded hlisted _, fun a ha => ?_⟩
      exact (hpage.covers hcover ha).imp_right And.right
    · obtain ⟨hnodup, hlisted, hcover⟩ := h.lists j list cursor hj
      exact ⟨hnodup, fun id hid => hmono (hlisted id hid), hbefore hcover⟩
  case pages =>
    intro j cursor hj
    rcases waits_listed.mp hj with ⟨-, hk⟩ | ⟨-, hj⟩
    · cases hk
    · exact hbefore (h.pages j cursor hj)
  case fetching =>
    intro j hj
    rcases waits_listed.mp hj with ⟨-, hk⟩ | ⟨-, hj⟩
    · cases hk
    · exact absurd hj (hnofetch j)
  case covered => exact fun _ hnext => hbefore (h.covered hnofetch hnext)
  case complete => exact fun _ hnext a ha => hmono (h.complete hnofetch hnext a ha)
  case busy => exact fun _ => ⟨i, Or.inr ⟨_, _, waits_listed.mpr (Or.inl ⟨rfl, rfl⟩)⟩⟩
  case busyMore =>
    intro hm
    obtain ⟨j, cursor, hj⟩ := h.busyMore hm
    refine ⟨j, cursor, waits_listed.mpr (Or.inr ⟨?_, hj⟩)⟩
    rintro rfl
    cases hw.kind_eq hj
  case applied => exact h.applied

/-- A "select all" ends with a list that has everything loaded, and everything is loaded. -/
theorem ViewInv.selectAllDone (h : ViewInv library s) (hno : ∀ i, ¬ s.Waits i .fetchMedia)
    {list : List MediaAsset} (hnodup : (ids list).Nodup)
    (hlisted : ∀ id ∈ ids list, id ∈ s.loadedMediaIdsRef) (hall : s.ListsLoaded list)
    (hcomplete : ∀ a ∈ (library s.selectedAlbum).assets, a.id ∈ s.loadedMediaIdsRef)
    (after : Option String) : ViewInv library (s.selectAllDone list after) := by
  constructor
  case nodup => exact hnodup
  case shown => exact hlisted
  case rendered => exact h.rendered
  case accounted => exact fun id hid => Or.inl (hall id hid)
  case lists => exact h.lists
  case pages => exact h.pages
  case fetching => exact fun i hw => absurd hw (hno i)
  case covered => exact fun _ _ a ha => Or.inl (hcomplete a ha)
  case complete => exact fun _ _ => hcomplete
  case busy =>
    intro hl
    cases hl
  case busyMore => exact h.busyMore
  case applied =>
    intro e he a ha
    rcases List.mem_append.mp he with he | he
    · exact h.applied e he a ha
    · rw [List.mem_singleton.mp he] at ha ⊢
      exact (mem_foldl_setAdd _).mpr (Or.inr (hall _ (hcomplete a ha)))

theorem selectAllAnswered_next {i : Nat} {allMedia : List MediaAsset} {after : Option String}
    {page : MediaPage} (hnext : page.hasNextPage = true) :
    s.selectAllAnswered i (s.call (.selectAll allMedia after)) allMedia (some page) =
      s.listed i allMedia after page := by
  simp [selectAllAnswered, hnext, listed, MediaView.resume]

theorem selectAllAnswered_last {i : Nat} {allMedia : List MediaAsset} {after : Option String}
    {page : MediaPage} (hnext : page.hasNextPage = false) :
    s.selectAllAnswered i (s.call (.selectAll allMedia after)) allMedia (some page) =
      ((s.listed i allMedia after page).selectAllDone
        (allMedia ++ (takeNew s.loadedMediaIdsRef page.assets).2) page.endCursor).drop i := by
  simp [selectAllAnswered, hnext, listed, MediaView.resume, MediaView.selectAllDone, MediaView.drop,
    MediaView.applySelection, Function.update_idem]

theorem ViewInv.selectAllLast (h : ViewInv library s) {i : Nat} {allMedia : List MediaAsset}
    {after : Option String} (hw : s.Waits i (.selectAll allMedia after)) {page : MediaPage}
    (hpage : s.PageCovers library after page) (hnext : page.hasNextPage = false)
    (hall : s.ListsLoaded allMedia) :
    ViewInv library (((s.listed i allMedia after page).selectAllDone
      (allMedia ++ (takeNew s.loadedMediaIdsRef page.assets).2) page.endCursor).drop i) := by
  obtain ⟨hnodup, hlisted, hcover⟩ := h.lists i allMedia after hw
  have hl := h.listed hw hpage
  have hself : (s.listed i allMedia after page).Waits i (.selectAll
      (allMedia ++ (takeNew s.loadedMediaIdsRef page.assets).2) page.endCursor) :=
    waits_listed.mpr (Or.inl ⟨rfl, rfl⟩)
  have hno : ∀ j, ¬ (s.listed i allMedia after page).Waits j .fetchMedia := by
    intro j hj
    have hij := (hl.fetching j hj).2.2.2.2 i _ hself
    subst hij
    cases hself.kind_eq hj
  have hdone := hl.selectAllDone hno (nodup_ids_takeNew hnodup hlisted _)
    (ids_takeNew_loaded hlisted _) ?_ ?_ page.endCursor
  · refine hdone.drop (hno i) (fun list cursor hj => ⟨rfl, fun id hid => ?_⟩) fun cursor hj => ?_
    · cases hself.kind_eq hj
      exact hid
    · cases hself.kind_eq hj
  · intro id hid
    rw [ids_append, List.mem_append]
    exact ((mem_takeNew_additions page.assets id).mp hid).imp_left (hall id)
  · intro a ha
    rcases hpage.covers hcover ha with hin | ⟨hlater, -⟩
    · exact hin
    · rw [hnext] at hlater
      cases hlater

/-! ## Steps -/

/-- Both invariants. -/
structure Inv (library : Option String → PagedAlbum) (s : MediaView) : Prop where
  calls : CallsInv s
  view : ViewInv library s

theorem Inv.loadMoreMedia (h : Inv library s) : Inv library s.loadMoreMedia := by
  unfold MediaView.loadMoreMedia
  split
  · exact h
  · rename_i hguard
    simp only [Bool.or_eq_true, Bool.not_eq_true', not_or, Bool.not_eq_true,
      Bool.not_eq_false] at hguard
    obtain ⟨⟨hloading, -⟩, hnext⟩ := hguard
    have hno := h.view.no_fetch hloading
    have hcover := h.view.covered hno hnext
    refine ⟨(h.calls.await (.loadMoreMedia s.pageCursorRef)).of_eq rfl rfl rfl rfl, ?_⟩
    refine (h.view.await h.calls hno (by simp) (fun _ _ he => by cases he)
      (fun after he => ?_) : ViewInv library (s.await (.loadMoreMedia s.pageCursorRef)))
      |>.setLoadingMore ⟨s.nextCall, s.pageCursorRef, ?_⟩
    · cases he
      exact hcover
    · exact (waits_await (h.calls.fresh _ (Nat.le_refl _)) _).mpr (Or.inl ⟨rfl, rfl⟩)

theorem Inv.selectAll (h : Inv library s) (hok : s.Admissible library .selectAll) :
    Inv library s.selectAll := by
  unfold MediaView.selectAll
  split
  · exact h
  · rename_i hguard
    simp only [Bool.or_eq_true, not_or, Bool.not_eq_true] at hguard
    obtain ⟨hloading, hmore⟩ := hguard
    have hno := h.view.no_fetch hloading
    split
    · rename_i hnext
      refine ⟨(h.calls.await (.selectAll s.renderedMedia s.pageCursorRef)).of_eq rfl rfl rfl rfl,
        ?_⟩
      refine (h.view.await h.calls hno (by simp) (fun _ _ he => ?_) (fun _ he => by cases he) :
        ViewInv library (s.await (.selectAll s.renderedMedia s.pageCursorRef)))
        |>.setLoading ⟨s.nextCall, s.renderedMedia, s.pageCursorRef, ?_⟩
      · cases he
        exact ⟨h.view.rendered.1, h.view.rendered.2, h.view.covered hno hnext⟩
      · exact (waits_await (h.calls.fresh _ (Nat.le_refl _)) _).mpr (Or.inl ⟨rfl, rfl⟩)
    · rename_i hnext
      rw [Bool.not_eq_true] at hnext
      refine ⟨h.calls.of_eq rfl rfl rfl rfl, ?_⟩
      exact h.view.selectAllDone hno h.view.rendered.1 h.view.rendered.2 (hok hloading hmore hnext)
        (h.view.complete hno hnext) s.pageCursorRef

/-- A call of an earlier operation returns. -/
theorem Inv.stale (h : Inv library s) {i : Nat} {call : MediaCall} (hcall : s.calls i = some call)
    (hstale : call.operation ≠ s.selectionOperationRef) : Inv library (s.drop i) := by
  have hidle : ∀ k, ¬ s.Waits i k := by
    intro k hw
    unfold Waits at hw
    rw [hcall] at hw
    cases hw
    exact hstale rfl
  exact ⟨h.calls.drop i, h.view.drop (hidle _) (fun _ _ hw => absurd hw (hidle _))
    fun _ hw => absurd hw (hidle _)⟩

theorem Inv.fetchAnswered (h : Inv library s) {i : Nat} (hw : s.Waits i .fetchMedia)
    (answer : PageAnswer) (hok : s.Admissible library (.answer i answer)) :
    Inv library
      ((s.fetchAnswered ((library s.selectedAlbum).getMediaPage answer none)).drop i) := by
  have hcalls : ∀ result, CallsInv (s.fetchAnswered result) := by
    intro result
    cases result <;> exact h.calls.of_eq rfl rfl rfl rfl
  refine ⟨(hcalls _).drop i, ?_⟩
  cases answer with
  | page =>
    refine h.view.fetched hw ?_ (pageCovers_page none)
    have hsub : ((library s.selectedAlbum).page none).assets.Sublist
      (library s.selectedAlbum).assets := by
      rw [← (library s.selectedAlbum).behind_start, (library s.selectedAlbum).behind_page none]
      exact List.sublist_append_left ..
    exact (library s.selectedAlbum).nodup.sublist (hsub.map _)
  | denied => exact h.view.fetched hw List.nodup_nil (pageCovers_denied (hok.1 hw))
  | throws => exact h.view.fetchFailed hw (hok.1 hw)

theorem Inv.loadMoreAnswered (h : Inv library s) {i : Nat} {after : Option String}
    (hw : s.Waits i (.loadMoreMedia after)) (answer : PageAnswer)
    (hok : s.Admissible library (.answer i answer)) :
    Inv library
      ((s.loadMoreAnswered ((library s.selectedAlbum).getMediaPage answer after)).drop i) := by
  have hcalls : ∀ result, CallsInv (s.loadMoreAnswered result) := by
    intro result
    cases result <;> exact h.calls.of_eq rfl rfl rfl rfl
  have hwaits : ∀ result k, (s.loadMoreAnswered result).Waits i k → k = .loadMoreMedia after := by
    intro result k hk
    cases result <;> exact Waits.kind_eq (s := s) hk hw
  have hidle : ∀ result, (s.loadMoreAnswered result).loadingMoreRef = false := by
    intro result
    cases result <;> rfl
  have hview : ViewInv library
      (s.loadMoreAnswered ((library s.selectedAlbum).getMediaPage answer after)) := by
    cases answer with
    | page => exact h.view.loadedMore hw (pageCovers_page after)
    | denied => exact h.view.loadedMore hw (pageCovers_denied (hok.2.1 after hw))
    | throws => exact h.view.loadMoreFailed
  refine ⟨(hcalls _).drop i, hview.drop (fun hk => ?_) (fun _ _ hk => ?_) fun _ _ => hidle _⟩
  · cases hwaits _ _ hk
  · cases hwaits _ _ hk

theorem CallsInv.listed (h : CallsInv s) {i : Nat} {allMedia : List MediaAsset}
    {after : Option String} (hw : s.Waits i (.selectAll allMedia after)) (page : MediaPage) :
    CallsInv (s.listed i allMedia after page) :=
  (h.resume hw (.selectAll (allMedia ++ (takeNew s.loadedMediaIdsRef page.assets).2)
    page.endCursor)).of_eq rfl rfl rfl rfl

theorem Inv.selectAllAnswered (h : Inv library s) {i : Nat} {allMedia : List MediaAsset}
    {after : Option String} (hw : s.Waits i (.selectAll allMedia after)) (answer : PageAnswer)
    (hok : s.Admissible library (.answer i answer)) :
    Inv library (s.selectAllAnswered i (s.call (.selectAll allMedia after)) allMedia
      ((library s.selectedAlbum).getMediaPage answer after)) := by
  have hlast : ∀ page : MediaPage, s.PageCovers library after page → page.hasNextPage = false →
      s.ListsLoaded allMedia → Inv library (s.selectAllAnswered i
        (s.call (.selectAll allMedia after)) allMedia (some page)) := by
    intro page hpage hnext hall
    rw [selectAllAnswered_last hnext]
    have hcalls := h.calls.listed hw page
    exact ⟨(hcalls.drop i).of_eq rfl rfl rfl rfl, h.view.selectAllLast hw hpage hnext hall⟩
  cases answer with
  | page =>
    cases hnext : ((library s.selectedAlbum).page after).hasNextPage with
    | true =>
      unfold PagedAlbum.getMediaPage
      rw [selectAllAnswered_next hnext]
      exact ⟨h.calls.listed hw _, h.view.listed hw (pageCovers_page after)⟩
    | false => exact hlast _ (pageCovers_page after) hnext (hok allMedia after hw hnext)
  | denied =>
    obtain ⟨hexhausted, hall⟩ := hok.2.2 allMedia after hw
    exact hlast _ (pageCovers_denied hexhausted) rfl hall
  | throws =>
    have hno : ∀ j, ¬ s.Waits j .fetchMedia := by
      intro j hj
      have hij := (h.view.fetching j hj).2.2.2.2 i _ hw
      subst hij
      cases hw.kind_eq hj
    have hview : ViewInv library { s with
        alerts := s.alerts ++ [MediaText.selectionUnavailable], loading := false } :=
      { h.view with
        fetching := fun j hj => absurd hj (hno j)
        busy := fun hl => by cases hl }
    refine ⟨(h.calls.drop i).of_eq rfl rfl rfl rfl, hview.drop (hno i)
      (fun list cursor hj => ⟨rfl, ?_⟩) fun cursor hj => ?_⟩
    · cases hw.kind_eq hj
      exact hok.2 allMedia after hw
    · cases hw.kind_eq hj

/-- **Every admissible step keeps the invariants.** -/
theorem Inv.step (h : Inv library s) {action : MediaAction} (hok : s.Admissible library action)
    {t : MediaView} (hstep : s.step library action = some t) : Inv library t := by
  cases action with
  | openAlbum albumId =>
    cases hstep
    exact ⟨(h.calls.cleared albumId).await _, ViewInv.openAlbum h.view.applied h.calls albumId⟩
  | render =>
    cases hstep
    exact ⟨h.calls.of_eq rfl rfl rfl rfl, h.view.render⟩
  | loadMoreMedia =>
    cases hstep
    exact h.loadMoreMedia
  | selectAll =>
    cases hstep
    exact h.selectAll hok
  | answer i answer =>
    obtain ⟨call, hcall, rfl⟩ := Option.map_eq_some_iff.mp hstep
    unfold answered
    split
    · rename_i hstale
      exact h.stale hcall hstale
    · rename_i hcurrent
      rw [not_not] at hcurrent
      have halbum := h.calls.album i call hcall hcurrent
      obtain ⟨operation, albumId, kind⟩ := call
      subst hcurrent halbum
      have hw : s.Waits i kind := hcall
      cases kind with
      | fetchMedia => exact h.fetchAnswered hw answer hok
      | loadMoreMedia after => exact h.loadMoreAnswered hw answer hok
      | selectAll allMedia after => exact h.selectAllAnswered hw answer hok

theorem Inv.mounted (library : Option String → PagedAlbum) : Inv library mounted := by
  have hcalls : CallsInv ({ selectedAlbum := none } : MediaView) :=
    ⟨fun _ _ => rfl, fun _ _ hcall => (by cases hcall), fun _ _ hcall => (by cases hcall)⟩
  exact ⟨(hcalls.cleared none).await _, ViewInv.openAlbum (fun _ he => (by cases he)) hcalls none⟩

/-! ## A "select all" without failures -/

theorem Inv.intact (h : Inv library s) (hquiet : s.Quiet) : s.Intact := by
  refine ⟨fun id => ⟨fun hid => ?_, h.view.shown id⟩, h.view.nodup⟩
  rcases h.view.accounted id hid with hshown | ⟨i, allMedia, after, hw, -⟩
  · exact hshown
  · exact absurd rfl (hquiet i _ hw)

theorem CallsInv.quiet (h : CallsInv s) (hidle : ∀ i k, ¬ s.Waits i k) : s.Quiet := by
  intro i call hcall hcurrent
  have halbum := h.album i call hcall hcurrent
  obtain ⟨operation, albumId, kind⟩ := call
  subst hcurrent halbum
  exact hidle i kind hcall

/-- The steps of one "select all" whose requests all succeed. -/
def Succeeds (library : Option String → PagedAlbum) (s : MediaView) (action : MediaAction) : Prop :=
  s.Admissible library action ∧
    (action = .render ∨ action = .selectAll ∨ ∃ i, action = .answer i .page)

/-- The "select all" has ended and selected `selected`. -/
def Selects (s t : MediaView) (selected : List String) : Prop :=
  t.Quiet ∧ t.selectedIds = selected ∧ t.applied = s.applied ++ [(s.selectedAlbum, selected)]

/-- The loop ends: every page brings the end of the album closer. -/
theorem Inv.pages_complete (n : Nat) {i : Nat} {allMedia : List MediaAsset} {after : Option String}
    (h : Inv library s) (hw : s.Waits i (.selectAll allMedia after)) (hall : s.ListsLoaded allMedia)
    (honly : ∀ j k, s.Waits j k → j = i)
    (hlength : ((library s.selectedAlbum).behind after).length < n) :
    ∃ t selected, Run (MediaView.step library) (Succeeds library) s t ∧ Selects s t selected := by
  induction n generalizing s allMedia after with
  | zero => exact absurd hlength (Nat.not_lt_zero _)
  | succ n ih =>
    have hok : Succeeds library s (.answer i .page) :=
      ⟨fun list cursor hj _ => by cases hw.kind_eq hj; exact hall, Or.inr (Or.inr ⟨i, rfl⟩)⟩
    have hstep : s.step library (.answer i .page) =
        some (s.selectAllAnswered i (s.call (.selectAll allMedia after)) allMedia
          (some ((library s.selectedAlbum).page after))) := by
      have hcall : s.calls i = some (s.call (.selectAll allMedia after)) := hw
      simp [MediaView.step, hcall, answered, MediaView.call, PagedAlbum.getMediaPage]
    have hinv := h.step hok.1 hstep
    cases hnext : ((library s.selectedAlbum).page after).hasNextPage with
    | true =>
      rw [selectAllAnswered_next hnext] at hstep hinv
      have hlisted : (s.listed i allMedia after ((library s.selectedAlbum).page after)).ListsLoaded
          (allMedia ++ (takeNew s.loadedMediaIdsRef
            ((library s.selectedAlbum).page after).assets).2) := by
        intro id hid
        rw [ids_append, List.mem_append]
        exact ((mem_takeNew_additions _ id).mp hid).imp_left (hall id)
      have hshrinks := (library s.selectedAlbum).behind_shrinks after hnext
      obtain ⟨t, selected, hrun, hselects⟩ := ih hinv (waits_listed.mpr (Or.inl ⟨rfl, rfl⟩)) hlisted
        (fun j k hj => (waits_listed.mp hj).elim And.left fun hj => honly j k hj.2)
        (Nat.lt_of_lt_of_le hshrinks (Nat.le_of_lt_succ hlength))
      exact ⟨t, selected, Run.trans (.tail (.refl s) hok hstep) hrun, hselects⟩
    | false =>
      rw [selectAllAnswered_last hnext] at hstep hinv
      refine ⟨_, _, .tail (.refl s) hok hstep, hinv.calls.quiet fun j k hj => ?_, rfl, rfl⟩
      obtain ⟨hne, hj⟩ := waits_drop.mp hj
      have hj' : (s.listed i allMedia after ((library s.selectedAlbum).page after)).Waits j k := hj
      rcases waits_listed.mp hj' with ⟨hji, -⟩ | ⟨-, hj'⟩
      · exact hne hji
      · exact hne (honly j k hj')

/-- From a settled screen, a "select all" whose requests succeed comes to its end. -/
theorem Inv.selectAll_completes (h : Inv library s) (hquiet : s.Quiet) :
    ∃ t selected, Run (MediaView.step library) (Succeeds library) s t ∧ Selects s t selected := by
  have hidle : ∀ i k, ¬ s.Waits i k := fun i k hw => hquiet i _ hw rfl
  have hintact := h.intact hquiet
  have hloading : s.loading = false := by
    by_contra hl
    obtain ⟨i, hw | ⟨allMedia, after, hw⟩⟩ := h.view.busy (by simpa using hl) <;> exact hidle i _ hw
  have hmore : s.loadingMoreRef = false := by
    by_contra hm
    obtain ⟨i, after, hw⟩ := h.view.busyMore (by simpa using hm)
    exact hidle i _ hw
  have hrender : Succeeds library s .render := ⟨trivial, Or.inl rfl⟩
  have hrendered : Inv library s.render := h.step hrender.1 rfl
  have hall : s.ListsLoaded s.media := fun id hid => (hintact.1 id).mp hid
  have hok : Succeeds library s.render .selectAll :=
    ⟨fun _ _ _ => hall, Or.inr (Or.inl rfl)⟩
  have hinv : Inv library s.render.selectAll := hrendered.selectAll hok.1
  have hrun : Run (MediaView.step library) (Succeeds library) s s.render.selectAll :=
    .tail (.tail (.refl s) hrender rfl) hok rfl
  cases hnext : s.hasNextPageRef with
  | true =>
    have hselect : s.render.selectAll =
        { s.render with loading := true }.await (.selectAll s.media s.pageCursorRef) := by
      simp [MediaView.selectAll, MediaView.render, hloading, hmore, hnext]
    rw [hselect] at hinv hrun
    have hwaits : ∀ j k, ({ s.render with loading := true }.await
        (.selectAll s.media s.pageCursorRef)).Waits j k ↔
          (j = s.nextCall ∧ k = .selectAll s.media s.pageCursorRef) ∨ s.Waits j k := by
      intro j k
      exact waits_await (s := { s.render with loading := true })
        (h.calls.fresh s.nextCall (Nat.le_refl _)) _
    obtain ⟨t, selected, hpages, hselects⟩ := hinv.pages_complete
      (((library s.selectedAlbum).behind s.pageCursorRef).length + 1)
      ((hwaits s.nextCall _).mpr (Or.inl ⟨rfl, rfl⟩)) hall
      (fun j k hj => ((hwaits j k).mp hj).elim And.left fun hj => absurd hj (hidle j k))
      (Nat.lt_succ_self _)
    exact ⟨t, selected, hrun.trans hpages, hselects⟩
  | false =>
    have hselect : s.render.selectAll = s.render.selectAllDone s.media s.pageCursorRef := by
      simp [MediaView.selectAll, MediaView.render, hloading, hmore, hnext]
    rw [hselect] at hinv hrun
    exact ⟨_, _, hrun, hinv.calls.quiet fun j k hj => hidle j k hj, rfl, rfl⟩

/-- **While no "select all" fails after it listed a new asset, the list on screen is what is loaded,
every completed "select all" has selected the whole album, and the next one completes.** -/
theorem select_all_intact (library : Option String → PagedAlbum) {s : MediaView}
    (hrun : Run (MediaView.step library) (Admissible library) mounted s) :
    (s.Quiet → s.Intact) ∧
      (∀ e ∈ s.applied, ∀ a ∈ (library e.1).assets, a.id ∈ e.2) ∧
      (s.Quiet → ∃ t selected, Run (MediaView.step library) (Succeeds library) s t ∧
        Selects s t selected ∧ ∀ a ∈ (library s.selectedAlbum).assets, a.id ∈ selected) := by
  have hinv : Inv library s := hrun.invariant (Inv.mounted library) fun _ _ _ h hok hstep =>
    h.step hok hstep
  refine ⟨hinv.intact, hinv.view.applied, fun hquiet => ?_⟩
  obtain ⟨t, selected, hselect, hselects⟩ := hinv.selectAll_completes hquiet
  have ht : Inv library t := hselect.invariant hinv fun _ _ _ h hok hstep => h.step hok.1 hstep
  refine ⟨t, selected, hselect, hselects, ht.view.applied (s.selectedAlbum, selected) ?_⟩
  rw [hselects.2.2]
  simp

/-! ## A page that is lost -/

def photo (id : String) : MediaAsset := { id, filename := id }

/-- Three photos on three pages. -/
def threePages : PagedAlbum where
  assets := [photo "a", photo "b", photo "c"]
  page after :=
    if after = none then { assets := [photo "a"], hasNextPage := true, endCursor := some "a" }
    else if after = some "a" then
      { assets := [photo "b"], hasNextPage := true, endCursor := some "b" }
    else if after = some "b" then { assets := [photo "c"], hasNextPage := false }
    else { assets := [], hasNextPage := false }
  behind after :=
    if after = none then [photo "a", photo "b", photo "c"]
    else if after = some "a" then [photo "b", photo "c"]
    else if after = some "b" then [photo "c"]
    else []
  nodup := by decide
  behind_start := rfl
  behind_page after := by
    by_cases h₁ : after = none
    · simp [h₁]
    · by_cases h₂ : after = some "a"
      · simp [h₂]
      · by_cases h₃ : after = some "b"
        · simp [h₃]
        · simp [h₁, h₂, h₃]
  behind_shrinks after := by
    by_cases h₁ : after = none
    · simp [h₁]
    · by_cases h₂ : after = some "a"
      · simp [h₂]
      · by_cases h₃ : after = some "b"
        · simp [h₃]
        · simp [h₁, h₂, h₃]

/-- The third page fails after the second one has arrived; the retry skips the second photo. -/
theorem select_all_loses_page :
    ∃ s, Run (MediaView.step fun _ => threePages) (fun _ _ => True) mounted s ∧
      s.Quiet ∧ ¬ s.Intact ∧
      ∃ t, Run (MediaView.step fun _ => threePages)
          (fun _ action => action = .render ∨ action = .selectAll ∨ ∃ i, action = .answer i .page)
          s t ∧
        t.Quiet ∧ ∃ e ∈ t.applied, ∃ a ∈ threePages.assets, a.id ∉ e.2 := by
  refine ⟨_, .tail (.tail (.tail (.tail (.tail (.refl _) trivial (l := .answer 0 .page) rfl)
    trivial (l := .render) rfl) trivial (l := .selectAll) rfl) trivial (l := .answer 1 .page) rfl)
    trivial (l := .answer 1 .throws) rfl, fun i call hcall => ?_, fun hintact => ?_, ?_⟩
  · rcases i with _ | _ | i <;> cases hcall
  · have hshown := (hintact.1 "b").mp (by decide)
    revert hshown
    decide
  · refine ⟨_, .tail (.tail (.tail (.tail (.refl _) (Or.inl rfl) (l := .render) rfl)
      (Or.inr (Or.inl rfl)) (l := .selectAll) rfl) (Or.inr (Or.inr ⟨2, rfl⟩)) rfl)
      (Or.inr (Or.inr ⟨2, rfl⟩)) rfl, fun i call hcall =>
        ?_, (none, ["a", "c"]), ?_, photo "b", ?_, ?_⟩
    · rcases i with _ | _ | _ | i <;> cases hcall
    · decide
    · decide
    · decide

theorem select_all_intact_fetched :
    let s := (mounted.fetchAnswered (some (threePages.page none))).drop 0
    s.Intact ∧ ∃ t selected, Run (MediaView.step fun _ => threePages)
      (Succeeds fun _ => threePages) s t ∧ Selects s t selected ∧
      ∀ a ∈ threePages.assets, a.id ∈ selected := by
  intro s
  have hfetch : mounted.Waits 0 .fetchMedia := rfl
  have hrun : Run (MediaView.step fun _ => threePages)
    (Admissible fun _ => threePages) mounted s := by
    refine .tail (.refl _) (l := .answer 0 .page) (fun allMedia after hw => ?_) rfl
    cases hfetch.kind_eq hw
  have hquiet : s.Quiet := by
    intro i call hcall
    rcases i with _ | i <;> cases hcall
  have hall := select_all_intact (fun _ => threePages) hrun
  exact ⟨hall.1 hquiet, hall.2.2 hquiet⟩

end MediaView

end LocalMediaTransfer
