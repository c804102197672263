import LocalMediaTransfer.Lib.LinkedMap
import LocalMediaTransfer.Ios.Upload.Types

/-!
# Selecting by dragging

A drag over the media grid (`useMediaSelection.ts`) selects, or unselects, the items between the
one it started at and the one under the finger.  Each move changes only what the step from the
previous target to the new one changes; the selection before the drag is read item by item, when a
move first touches the item, from the store that the drag is changing.  The media list is the one
that the callbacks captured; listeners, haptics and the geometry of the grid are left out.

* `dragSelectionDelta_spec` — what one move updates, item by item.
* `drag_path_independent` — after any moves the selection depends on the last target only.
* `drag_skips_unnamed` — an item with an empty ID stays out of every drag.
-/

set_option autoImplicit false

namespace LocalMediaTransfer

open Lib

namespace MediaDrag

/-! ## The selection store -/

/-- One entry of `selectionStore.update`. -/
def updateEntry (selectedIds : List String) (entry : String × Bool) : List String :=
  if decide (entry.1 ∈ selectedIds) = entry.2 then selectedIds
  else if entry.2 then selectedIds ++ [entry.1]
  else selectedIds.filter fun id => decide (id ≠ entry.1)

/-- `selectionStore.update`. -/
def storeUpdate (selectedIds : List String) (entries : List (String × Bool)) : List String :=
  entries.foldl updateEntry selectedIds

/-! ## One move -/

/-- The baseline as far as it was read, and the updates. -/
structure Delta where
  baseline : LinkedMap String Bool
  updates : LinkedMap String Bool

/-- `getBaselineSelection`: the selection of the item before the drag, noted when it is first
asked for. -/
def getBaselineSelection (selectedIds : List String) (baseline : LinkedMap String Bool)
    (id : String) : Bool × LinkedMap String Bool :=
  match baseline.get? id with
  | some existing => (existing, baseline)
  | none => (decide (id ∈ selectedIds), baseline.set id (decide (id ∈ selectedIds)))

section Move

variable (media : List MediaAsset) (selectedIds : List String) (selectMode : Bool)

/-- One round of the loop of `updateRange`. -/
def updateIndex (entering : Bool) (delta : Delta) (index : Nat) : Delta :=
  match media[index]? with
  | none => delta
  | some asset =>
      if asset.id = "" then delta
      else
        let (baselineSelected, baseline) := getBaselineSelection selectedIds delta.baseline asset.id
        { baseline
          updates := delta.updates.set asset.id
            (if entering then selectMode else baselineSelected) }

/-- `updateRange`. -/
def updateRange (first last : Nat) (entering : Bool) (delta : Delta) : Delta :=
  (List.range' first (last + 1 - first)).foldl (updateIndex media selectedIds selectMode entering)
    delta

/-- `dragSelectionDelta`. -/
def dragSelectionDelta (baseline : LinkedMap String Bool) (startIndex : Nat)
    (previousTargetIndex : Option Nat) (targetIndex : Nat) : Delta :=
  let delta : Delta := { baseline, updates := .empty }
  let range := updateRange media selectedIds selectMode
  match previousTargetIndex with
  | none => range (min startIndex targetIndex) (max startIndex targetIndex) true delta
  | some previousTargetIndex =>
      let previousFirst := min startIndex previousTargetIndex
      let previousLast := max startIndex previousTargetIndex
      let nextFirst := min startIndex targetIndex
      let nextLast := max startIndex targetIndex
      let delta := if previousFirst < nextFirst then range previousFirst (nextFirst - 1) false delta
        else delta
      let delta := if nextFirst < previousFirst then range nextFirst (previousFirst - 1) true delta
        else delta
      let delta := if previousLast < nextLast then range (previousLast + 1) nextLast true delta
        else delta
      if nextLast < previousLast then range (nextLast + 1) previousLast false delta else delta

end Move

/-! ## A drag -/

structure DragState where
  /-- The IDs in `selectionStore`. -/
  selectedIds : List String
  selectedCount : Nat
  dragStartIndex : Option Nat := none
  dragLastIndex : Option Nat := none
  dragSelectMode : Bool := true
  dragBaseline : LinkedMap String Bool := .empty
  suppressNextPress : Bool := false

namespace DragState

/-- `updateDragSelection`. -/
def updateDragSelection (media : List MediaAsset) (s : DragState) (targetIndex : Int) : DragState :=
  match s.dragStartIndex with
  | none => s
  | some start =>
      if targetIndex < 0 ∨ s.dragLastIndex = some targetIndex.toNat then s
      else
        let delta := dragSelectionDelta media s.selectedIds s.dragSelectMode s.dragBaseline start
          s.dragLastIndex targetIndex.toNat
        let selectedIds := storeUpdate s.selectedIds delta.updates.entries
        { s with
          dragLastIndex := some targetIndex.toNat
          dragBaseline := delta.baseline
          selectedIds
          selectedCount := selectedIds.length }

/-- `beginDragSelection` for an item that is there, with its select mode. -/
def startDrag (media : List MediaAsset) (s : DragState) (index : Nat) (selectMode : Bool) :
    DragState :=
  { s with
    dragStartIndex := some index
    dragLastIndex := none
    dragBaseline := .empty
    dragSelectMode := selectMode
    suppressNextPress := true }.updateDragSelection media index

/-- `beginDragSelection`. -/
def beginDragSelection (media : List MediaAsset) (s : DragState) (index : Nat)
    (forceSelect : Bool) : DragState :=
  match media[index]? with
  | none => s
  | some asset =>
      if asset.id = "" then s
      else s.startDrag media index (forceSelect || !decide (asset.id ∈ s.selectedIds))

/-- `endDragSelection`. -/
def endDragSelection (s : DragState) : DragState :=
  { s with dragStartIndex := none, dragLastIndex := none, dragBaseline := .empty }

end DragState

/-! ## The store after updates -/

theorem mem_updateEntry {selectedIds : List String} {entry : String × Bool} {id : String} :
    id ∈ updateEntry selectedIds entry ↔
      if id = entry.1 then entry.2 = true else id ∈ selectedIds := by
  obtain ⟨key, value⟩ := entry
  unfold updateEntry
  by_cases hid : id = key
  · subst hid
    cases value <;> by_cases hmem : id ∈ selectedIds <;> simp [hmem]
  · cases value <;> by_cases hmem : key ∈ selectedIds <;> simp [hmem, hid]

/-- **The store after an update**: the updated items as asked, every other as it was. -/
theorem mem_storeUpdate {selectedIds : List String} {entries : List (String × Bool)} {id : String}
    (h : (entries.map Prod.fst).Nodup) :
    id ∈ storeUpdate selectedIds entries ↔
      (LinkedMap.find id entries).getD (decide (id ∈ selectedIds)) = true := by
  unfold storeUpdate
  induction entries generalizing selectedIds with
  | nil => simp [LinkedMap.find]
  | cons entry rest ih =>
    rw [List.map_cons, List.nodup_cons] at h
    rw [List.foldl_cons, ih h.2, LinkedMap.find]
    by_cases hid : entry.1 = id
    · have hnone : LinkedMap.find id rest = none := by
        rw [Option.eq_none_iff_forall_ne_some]
        intro value hvalue
        have hmem := (LinkedMap.find_eq_some_iff h.2).mp hvalue
        exact h.1 (hid ▸ List.mem_map_of_mem hmem)
      rw [if_pos hid, hnone, Option.getD_none, Option.getD_some, decide_eq_true_iff,
        mem_updateEntry, if_pos hid.symm]
    · rw [if_neg hid]
      have hiff : decide (id ∈ updateEntry selectedIds entry) = decide (id ∈ selectedIds) := by
        rw [decide_eq_decide, mem_updateEntry, if_neg (Ne.symm hid)]
      rw [hiff]

/-! ## What a move updates -/

/-- The item at the index has this ID. -/
def ItemAt (media : List MediaAsset) (index : Nat) (id : String) : Prop :=
  (media[index]?).map (·.id) = some id ∧ id ≠ ""

/-- With distinct IDs an ID has one index. -/
theorem itemAt_unique {media : List MediaAsset} (hmedia : (media.map (·.id)).Nodup) {i j : Nat}
    {id : String} (hi : ItemAt media i id) (hj : ItemAt media j id) : i = j := by
  have hi' : (media.map (·.id))[i]? = some id := by rw [List.getElem?_map]; exact hi.1
  have hj' : (media.map (·.id))[j]? = some id := by rw [List.getElem?_map]; exact hj.1
  obtain ⟨hlt, -⟩ := List.getElem?_eq_some_iff.mp hi'
  exact (List.getElem?_inj hlt hmedia).mp (hi'.trans hj'.symm)

/-- The baseline read so far is the selection before the drag, and what is not read yet has not
been updated. -/
structure Noted (before selectedIds : List String) (delta : Delta) : Prop where
  told : ∀ id b, delta.baseline.get? id = some b → b = decide (id ∈ before)
  rest : ∀ id, delta.baseline.get? id = none →
    (id ∈ selectedIds ↔ id ∈ before) ∧ delta.updates.get? id = none

/-- What a range asks of an item. -/
def wanted (before : List String) (selectMode entering : Bool) (id : String) : Bool :=
  if entering then selectMode else decide (id ∈ before)

section Move

variable {media : List MediaAsset} {before selectedIds : List String} {selectMode entering : Bool}
  {delta : Delta}

theorem getBaselineSelection_spec (h : Noted before selectedIds delta) (id : String) :
    (getBaselineSelection selectedIds delta.baseline id).1 = decide (id ∈ before) ∧
      ∀ key, (getBaselineSelection selectedIds delta.baseline id).2.get? key =
        if key = id then some (decide (id ∈ before)) else delta.baseline.get? key := by
  unfold getBaselineSelection
  split
  · rename_i existing hexisting
    have htold := h.told id existing hexisting
    refine ⟨htold, fun key => ?_⟩
    split
    · rename_i hkey
      rw [hkey, hexisting, htold]
    · rfl
  · rename_i hnone
    have hrest : decide (id ∈ selectedIds) = decide (id ∈ before) :=
      decide_eq_decide.mpr (h.rest id hnone).1
    rw [hrest]
    exact ⟨rfl, fun key => LinkedMap.get?_set _ _ _ _⟩

variable (media selectMode entering) in
/-- One index: its item is updated, everything else is as it was. -/
theorem updateIndex_spec (h : Noted before selectedIds delta) (index : Nat) :
    Noted before selectedIds (updateIndex media selectedIds selectMode entering delta index) ∧
      (∀ id, ItemAt media index id →
        (updateIndex media selectedIds selectMode entering delta index).updates.get? id =
          some (wanted before selectMode entering id)) ∧
      ∀ id, ¬ItemAt media index id →
        (updateIndex media selectedIds selectMode entering delta index).updates.get? id =
          delta.updates.get? id := by
  unfold updateIndex ItemAt
  cases hasset : media[index]? with
  | none => exact ⟨h, fun id hid => by simp at hid, fun _ _ => rfl⟩
  | some asset =>
    by_cases hempty : asset.id = ""
    · simp only [hempty, if_true]
      refine ⟨h, fun id hid => ?_, fun _ _ => trivial⟩
      simp only [Option.map_some, hempty, Option.some.injEq] at hid
      exact absurd hid.1.symm hid.2
    · obtain ⟨hvalue, hbaseline⟩ := getBaselineSelection_spec h asset.id
      simp only [hempty, if_false, Option.map_some, Option.some.injEq, hvalue]
      refine ⟨⟨fun id b hb => ?_, fun id hnone => ?_⟩, fun id hid => ?_, fun id hid => ?_⟩
      · rw [hbaseline] at hb
        split at hb
        · rename_i heq
          rw [heq]
          exact (Option.some.inj hb).symm
        · exact h.told id b hb
      · rw [hbaseline] at hnone
        split at hnone
        · cases hnone
        · rename_i hne
          rw [LinkedMap.get?_set_ne _ hne]
          exact h.rest id hnone
      · rw [← hid.1, LinkedMap.get?_set_self]
        rfl
      · have hne : id ≠ asset.id := fun heq => hid ⟨heq.symm, heq ▸ hempty⟩
        rw [LinkedMap.get?_set_ne _ hne]

/-- What a part of a move updates: `covers` holds of the indices it goes through. -/
structure Updates (media : List MediaAsset) (before selectedIds : List String)
    (delta delta' : Delta) (covers : Nat → Prop) (value : String → Bool) : Prop where
  noted : Noted before selectedIds delta'
  inside : ∀ id index, ItemAt media index id → covers index →
    delta'.updates.get? id = some (value id)
  outside : ∀ id, (∀ index, ItemAt media index id → ¬covers index) →
    delta'.updates.get? id = delta.updates.get? id

variable (media selectMode entering) in
/-- The loop over a list of indices. -/
theorem foldl_updateIndex_spec (h : Noted before selectedIds delta) (indices : List Nat) :
    Updates media before selectedIds delta
      (indices.foldl (updateIndex media selectedIds selectMode entering) delta) (· ∈ indices)
      (wanted before selectMode entering) := by
  induction indices generalizing delta with
  | nil => exact ⟨h, fun _ _ _ hin => by simp at hin, fun _ _ => rfl⟩
  | cons index rest ih =>
    obtain ⟨hnoted, hhere, helse⟩ := updateIndex_spec media selectMode entering h index
    have hrest := ih hnoted
    refine ⟨hrest.noted, fun id i hi hin => ?_, fun id hout => ?_⟩
    · by_cases hlater : ∃ j ∈ rest, ItemAt media j id
      · obtain ⟨j, hj, hitem⟩ := hlater
        exact hrest.inside id j hitem hj
      · have hi' : i = index := by
          rcases List.mem_cons.mp hin with heq | hmem
          · exact heq
          · exact absurd ⟨i, hmem, hi⟩ hlater
        rw [List.foldl_cons, hrest.outside id fun j hj hmem => hlater ⟨j, hmem, hj⟩]
        exact hhere id (hi' ▸ hi)
    · rw [List.foldl_cons, hrest.outside id fun j hj hmem =>
        hout j hj (List.mem_cons_of_mem _ hmem)]
      exact helse id fun hitem => hout index hitem List.mem_cons_self

variable (media selectMode entering) in
theorem updateRange_spec (h : Noted before selectedIds delta) (first last : Nat) :
    Updates media before selectedIds delta
      (updateRange media selectedIds selectMode first last entering delta)
      (fun index => first ≤ index ∧ index ≤ last) (wanted before selectMode entering) := by
  have hfold := foldl_updateIndex_spec media selectMode entering h
    (List.range' first (last + 1 - first))
  have hmem : ∀ index, index ∈ List.range' first (last + 1 - first) ↔
      first ≤ index ∧ index ≤ last := by
    intro index
    rw [List.mem_range'_1]
    omega
  exact ⟨hfold.noted, fun id index hitem hin => hfold.inside id index hitem ((hmem index).mpr hin),
    fun id hout => hfold.outside id fun index hitem hin => hout index hitem ((hmem index).mp hin)⟩

variable (media selectMode entering) in
/-- A range that a move may leave out. -/
theorem updateRange_if_spec (h : Noted before selectedIds delta) (moves : Prop) [Decidable moves]
    (first last : Nat) :
    Updates media before selectedIds delta
      (if moves then updateRange media selectedIds selectMode first last entering delta else delta)
      (fun index => moves ∧ first ≤ index ∧ index ≤ last) (wanted before selectMode entering) := by
  split
  · rename_i hmoves
    have hrange := updateRange_spec media selectMode entering h first last
    exact ⟨hrange.noted, fun id index hitem hin => hrange.inside id index hitem hin.2,
      fun id hout => hrange.outside id fun index hitem hin => hout index hitem ⟨hmoves, hin⟩⟩
  · rename_i hmoves
    exact ⟨h, fun _ _ _ hin => absurd hin.1 hmoves, fun _ _ => rfl⟩

/-- With distinct IDs the index of the item decides. -/
theorem Updates.get? {delta' : Delta} {covers : Nat → Prop} [DecidablePred covers]
    {value : String → Bool} (h : Updates media before selectedIds delta delta' covers value)
    (hmedia : (media.map (·.id)).Nodup) {index : Nat} {id : String}
    (hitem : ItemAt media index id) :
    delta'.updates.get? id =
      if covers index then some (value id) else delta.updates.get? id := by
  split
  · rename_i hin
    exact h.inside id index hitem hin
  · rename_i hout
    exact h.outside id fun i hi hin => hout (itemAt_unique hmedia hi hitem ▸ hin)

/-- The index is between the start of a drag and a target, in either direction. -/
def Between (start target index : Nat) : Prop := min start target ≤ index ∧ index ≤ max start target

instance (start target index : Nat) : Decidable (Between start target index) :=
  inferInstanceAs (Decidable (_ ∧ _))

/-- **What a move updates**: the items that enter the range get the select mode, those that leave
it what they were before the drag, and nothing else is touched. -/
theorem dragSelectionDelta_spec (selectMode : Bool) {baseline : LinkedMap String Bool}
    (h : Noted before selectedIds { baseline, updates := .empty })
    (hmedia : (media.map (·.id)).Nodup) (start : Nat) (previous : Option Nat) (target : Nat) :
    Noted before selectedIds
        (dragSelectionDelta media selectedIds selectMode baseline start previous target) ∧
      (∀ id index, ItemAt media index id →
        (dragSelectionDelta media selectedIds selectMode baseline start previous
          target).updates.get?
            id =
          if Between start target index then
            if ∃ p ∈ previous, Between start p index then none else some selectMode
          else if ∃ p ∈ previous, Between start p index then some (decide (id ∈ before))
          else none) ∧
      ∀ id, (∀ index, ¬ItemAt media index id) →
        (dragSelectionDelta media selectedIds selectMode baseline start previous
          target).updates.get?
          id = none := by
  cases previous with
  | none =>
    have hrange := updateRange_spec media selectMode true h (min start target) (max start target)
    refine ⟨hrange.noted, fun id index hitem => ?_, fun id hid => ?_⟩
    · refine (hrange.get? hmedia hitem).trans ?_
      simp [Between, wanted]
    · exact hrange.outside id fun index hitem => absurd hitem (hid index)
  | some previous =>
    have h₁ := updateRange_if_spec media selectMode false h (min start previous < min start target)
      (min start previous) (min start target - 1)
    have h₂ := updateRange_if_spec media selectMode true h₁.noted
      (min start target < min start previous) (min start target) (min start previous - 1)
    have h₃ := updateRange_if_spec media selectMode true h₂.noted
      (max start previous < max start target) (max start previous + 1) (max start target)
    have h₄ := updateRange_if_spec media selectMode false h₃.noted
      (max start target < max start previous) (max start target + 1) (max start previous)
    refine ⟨h₄.noted, fun id index hitem => ?_, fun id hid => ?_⟩
    · refine (h₄.get? hmedia hitem).trans ?_
      rw [h₃.get? hmedia hitem, h₂.get? hmedia hitem, h₁.get? hmedia hitem]
      simp only [Option.mem_def, Option.some.injEq, exists_eq_left', Between, wanted, if_true,
        Bool.false_eq_true, if_false, LinkedMap.get?_empty]
      repeat' split
      all_goals first | rfl | omega
    · have hno : ∀ {covers : Nat → Prop}, ∀ index, ItemAt media index id → ¬covers index :=
        fun index hitem => absurd hitem (hid index)
      refine (h₄.outside id hno).trans ?_
      rw [h₃.outside id hno, h₂.outside id hno, h₁.outside id hno]
      rfl

end Move

/-! ## A whole drag -/

/-- The target of the last move that has one; a drag starts at its start index. -/
def lastTarget (start : Nat) (targets : List Int) : Nat :=
  targets.foldl (fun last target => if target < 0 then last else target.toNat) start

/-- The item is between the start of the drag and the target it reached. -/
def Covered (media : List MediaAsset) (start : Nat) (reached : Option Nat) (id : String) : Prop :=
  ∃ index, ItemAt media index id ∧ ∃ target ∈ reached, Between start target index

/-- The state of a drag that reached a target, over the selection before it. -/
structure Dragging (media : List MediaAsset) (before : List String) (start : Nat)
    (selectMode : Bool) (reached : Option Nat) (s : DragState) : Prop where
  startIndex : s.dragStartIndex = some start
  lastIndex : s.dragLastIndex = reached
  mode : s.dragSelectMode = selectMode
  noted : Noted before s.selectedIds { baseline := s.dragBaseline, updates := .empty }
  covered : ∀ id, Covered media start reached id → (id ∈ s.selectedIds ↔ selectMode = true)
  rest : ∀ id, ¬Covered media start reached id → (id ∈ s.selectedIds ↔ id ∈ before)

section Drag

variable {media : List MediaAsset} {before : List String} {start : Nat} {selectMode : Bool}
  {reached : Option Nat} {s : DragState}

theorem covered_iff (hmedia : (media.map (·.id)).Nodup) {index : Nat} {id : String}
    (hitem : ItemAt media index id) :
    Covered media start reached id ↔ ∃ target ∈ reached, Between start target index := by
  constructor
  · rintro ⟨i, hi, hreached⟩
    exact itemAt_unique hmedia hi hitem ▸ hreached
  · exact fun hreached => ⟨index, hitem, hreached⟩

/-- **One move**: whatever the drag reached before, it now covers the range to the new target. -/
theorem updateDragSelection_spec (h : Dragging media before start selectMode reached s)
    (hmedia : (media.map (·.id)).Nodup) {target : Int} (htarget : 0 ≤ target) :
    Dragging media before start selectMode (some target.toNat)
      (s.updateDragSelection media target) := by
  unfold DragState.updateDragSelection
  rw [h.startIndex]
  by_cases hsame : s.dragLastIndex = some target.toNat
  · simp only [hsame, or_true, if_true]
    exact h.lastIndex.symm.trans hsame ▸ h
  have hmove : ¬(target < 0 ∨ s.dragLastIndex = some target.toNat) := by
    rintro (hneg | heq)
    · omega
    · exact hsame heq
  simp only [hmove, if_false]
  have hmode := h.mode
  have hlast := h.lastIndex
  subst hmode hlast
  obtain ⟨hnoted, hitems, hothers⟩ :=
    dragSelectionDelta_spec s.dragSelectMode h.noted hmedia start s.dragLastIndex target.toNat
  generalize dragSelectionDelta media s.selectedIds s.dragSelectMode s.dragBaseline start
    s.dragLastIndex target.toNat = delta at hnoted hitems hothers
  have hstore : ∀ id, id ∈ storeUpdate s.selectedIds delta.updates.entries ↔
      (delta.updates.get? id).getD (decide (id ∈ s.selectedIds)) = true :=
    fun id => mem_storeUpdate delta.updates.nodup
  refine ⟨rfl, rfl, rfl, ⟨hnoted.told, fun id hnone => ⟨?_, rfl⟩⟩, fun id hid =>
    ?_, fun id hid => ?_⟩
  · obtain ⟨hbefore, hupdate⟩ := hnoted.rest id hnone
    rw [hstore, hupdate, Option.getD_none, decide_eq_true_iff, hbefore]
  · obtain ⟨index, hitem, hin⟩ := hid
    have hbetween : Between start target.toNat index := by simpa using hin
    rw [hstore, hitems id index hitem, if_pos hbetween]
    split
    · rename_i hprevious
      rw [Option.getD_none, decide_eq_true_iff]
      exact h.covered id ⟨index, hitem, hprevious⟩
    · rfl
  · by_cases hany : ∃ index, ItemAt media index id
    · obtain ⟨index, hitem⟩ := hany
      have hout : ¬Between start target.toNat index :=
        fun hbetween => hid ⟨index, hitem, _, rfl, hbetween⟩
      rw [hstore, hitems id index hitem, if_neg hout]
      split
      · rw [Option.getD_some, decide_eq_true_iff]
      · rename_i hprevious
        rw [Option.getD_none, decide_eq_true_iff]
        exact h.rest id fun hcovered => hprevious ((covered_iff hmedia hitem).mp hcovered)
    · have hno : ∀ index, ¬ItemAt media index id := fun index hitem => hany ⟨index, hitem⟩
      rw [hstore, hothers id hno, Option.getD_none, decide_eq_true_iff]
      exact h.rest id fun hcovered => hany ⟨_, hcovered.choose_spec.1⟩

/-- A move to no cell changes nothing. -/
theorem updateDragSelection_negative {target : Int} (htarget : target < 0) :
    s.updateDragSelection media target = s := by
  unfold DragState.updateDragSelection
  split
  · rfl
  · rw [if_pos (.inl htarget)]

theorem startDrag_spec (hmedia : (media.map (·.id)).Nodup) (s : DragState) (index : Nat)
    (selectMode : Bool) :
    Dragging media s.selectedIds index selectMode (some index)
      (s.startDrag media index selectMode) := by
  have hstart : Dragging media s.selectedIds index selectMode none
      { s with
        dragStartIndex := some index
        dragLastIndex := none
        dragBaseline := .empty
        dragSelectMode := selectMode
        suppressNextPress := true } := by
    refine ⟨rfl, rfl, rfl, ⟨fun id b hb => ?_, fun id _ => ⟨Iff.rfl, rfl⟩⟩, fun id hid => ?_,
      fun id _ => Iff.rfl⟩
    · rw [LinkedMap.get?_empty] at hb
      cases hb
    · obtain ⟨-, -, target, hnone, -⟩ := hid
      cases hnone
  exact updateDragSelection_spec hstart hmedia (Int.natCast_nonneg index)

/-- Every list of moves keeps the drag in such a state. -/
theorem dragging_foldl (hmedia : (media.map (·.id)).Nodup) (targets : List Int) {last : Nat}
    (h : Dragging media before start selectMode (some last) s) :
    Dragging media before start selectMode (some (lastTarget last targets))
      (targets.foldl (DragState.updateDragSelection media) s) := by
  induction targets generalizing s last with
  | nil => exact h
  | cons target rest ih =>
    unfold lastTarget at ih ⊢
    rw [List.foldl_cons, List.foldl_cons]
    split
    · rename_i hneg
      rw [updateDragSelection_negative hneg]
      exact ih h
    · rename_i hpos
      exact ih (updateDragSelection_spec h hmedia (by omega))

/-- A drag that begins at an item has its select mode from the item, unless it is forced. -/
theorem beginDragSelection_eq {index : Nat} {id : String} (hitem : ItemAt media index id)
    (forceSelect : Bool) :
    s.beginDragSelection media index forceSelect =
      s.startDrag media index (forceSelect || !decide (id ∈ s.selectedIds)) := by
  obtain ⟨hid, hne⟩ := hitem
  obtain ⟨asset, hasset, rfl⟩ := Option.map_eq_some_iff.mp hid
  unfold DragState.beginDragSelection
  rw [hasset]
  exact if_neg hne

end Drag

/-- **The selection of a drag depends on its last target only**: the items between the start and
the last target have the select mode, every other item is as it was before the drag.  The items
are those with an ID; a drag that begins at one runs like this with its select mode. -/
theorem drag_path_independent {media : List MediaAsset} (hmedia : (media.map (·.id)).Nodup)
    (s : DragState) (start : Nat) (selectMode : Bool) (targets : List Int) :
    (∀ id, id ∈ (targets.foldl (DragState.updateDragSelection media)
        (s.startDrag media start selectMode)).selectedIds ↔
      (Covered media start (some (lastTarget start targets)) id ∧ selectMode = true) ∨
        (¬Covered media start (some (lastTarget start targets)) id ∧ id ∈ s.selectedIds)) ∧
      ∀ id forceSelect, ItemAt media start id →
        s.beginDragSelection media start forceSelect =
          s.startDrag media start (forceSelect || !decide (id ∈ s.selectedIds)) := by
  refine ⟨fun id => ?_, fun id forceSelect hitem => beginDragSelection_eq hitem forceSelect⟩
  have hdrag := dragging_foldl hmedia targets (startDrag_spec hmedia s start selectMode)
  by_cases hcovered : Covered media start (some (lastTarget start targets)) id
  · rw [hdrag.covered id hcovered]
    simp [hcovered]
  · rw [hdrag.rest id hcovered]
    simp [hcovered]

/-- Four items, of which `b` is selected; the drag unselects from `b` down to the last one and
comes back over its start. -/
theorem drag_path_independent_back :
    let media : List MediaAsset := [⟨"a", ""⟩, ⟨"b", ""⟩, ⟨"c", ""⟩, ⟨"d", ""⟩]
    let s : DragState := { selectedIds := ["b", "d"], selectedCount := 2 }
    (∀ id, id ∈ ([3, -1, 0].foldl (DragState.updateDragSelection media)
        (s.startDrag media 1 false)).selectedIds ↔
      (Covered media 1 (some 0) id ∧ false = true) ∨
        (¬Covered media 1 (some 0) id ∧ id ∈ s.selectedIds)) :=
  (drag_path_independent (by decide) _ 1 false [3, -1, 0]).1

/-- The guard on the ID: an item whose ID is empty is between the start and the target, and the
drag does not select it. -/
theorem drag_skips_unnamed :
    let media : List MediaAsset := [⟨"a", ""⟩, ⟨"", ""⟩, ⟨"c", ""⟩]
    let s : DragState := { selectedIds := [], selectedCount := 0 }
    (media.map (·.id)).Nodup ∧ Between 0 (lastTarget 0 [2]) 1 ∧
      (media[1]?).map (·.id) = some "" ∧
      ([2].foldl (DragState.updateDragSelection media) (s.startDrag media 0 true)).selectedIds =
        ["a", "c"] := by
  decide

end MediaDrag

end LocalMediaTransfer
