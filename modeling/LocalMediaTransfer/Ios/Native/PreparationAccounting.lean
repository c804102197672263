import LocalMediaTransfer.Ios.Native.PreparationSessionStore

/-!
# Temporary storage of a transfer session

A session may use a budget of temporary storage.  Chunks are charged as they are written
(`reserveTemporaryChunk`), a finished file takes its chunks over into its own charge
(`registerPreparedFile`), and the charge is given back by `release` or, for a file that was never
registered, by `discardTemporaryReservation`; both of these subtract with a clamp.

* `Balanced` — the charge of a session is what its temporary records and its unfinished files
  occupy, and it is within the budget.
* `temporary_storage_accounted` — every session of every reachable store is balanced, so no clamp
  ever acts, and a call that throws changes nothing.
-/

set_option autoImplicit false

namespace LocalMediaTransfer

open Lib

namespace Preparation

variable {Url : Type}

/-- What a record is charged. -/
def recordCharge (_ : String) (record : PreparedRecord Url) : Nat :=
  if record.temporary then record.sizeBytes else 0

/-- The sizes of the registered temporary records. -/
def Session.temporaryBytes (session : Session Url) : Nat :=
  Table.total recordCharge session.recordsByVariant

/-- The sum of `partialBytes`. -/
def Session.partialTotal (session : Session Url) : Nat :=
  Table.total (fun _ bytes => bytes) session.partialBytes

/-- The charge is what is there, and it is within the budget. -/
structure Balanced (session : Session Url) : Prop where
  accounted : session.reservedBytes = session.temporaryBytes + session.partialTotal
  within : session.reservedBytes ≤ session.budgetBytes

variable [DecidableEq Url]

/-- The part of a file is at most the charge. -/
theorem Balanced.part_le {session : Session Url} (h : Balanced session) (url : Url) :
    (session.partialBytes.lookup url).getD 0 ≤ session.reservedBytes := by
  cases hpart : session.partialBytes.lookup url with
  | none => exact Nat.zero_le _
  | some bytes =>
    have htotal := Table.total_erase (f := fun _ bytes => bytes) hpart
    have haccounted := h.accounted
    unfold Session.partialTotal at haccounted
    rw [Option.getD_some]
    omega

omit [DecidableEq Url] in
/-- The charge of a record is at most the charge of its session. -/
theorem Balanced.record_le {session : Session Url} (h : Balanced session) {variantId : String}
    {record : PreparedRecord Url}
    (hrecord : session.recordsByVariant.lookup variantId = some record) :
    recordCharge variantId record ≤ session.reservedBytes := by
  have htotal := Table.total_erase (f := recordCharge) hrecord
  have haccounted := h.accounted
  unfold Session.temporaryBytes at haccounted
  omega

/-- Without an entry, its part is gone from the sum. -/
theorem partialTotal_erase (session : Session Url) (url : Url) :
    Table.total (fun _ bytes => bytes) (session.partialBytes.erase url) +
      (session.partialBytes.lookup url).getD 0 = session.partialTotal := by
  unfold Session.partialTotal
  cases hpart : session.partialBytes.lookup url with
  | none => rw [Table.total_erase_of_none hpart, Option.getD_none, Nat.add_zero]
  | some bytes =>
    rw [← Table.total_erase hpart, Option.getD_some]
    omega

/-- The chunks of a file become part of its charge. -/
theorem charge_spec {session charged : Session Url} {url : Url} {sizeBytes : Nat}
    (h : Balanced session) (hcharge : session.charge url sizeBytes = .ok charged) :
    charged.recordsByVariant = session.recordsByVariant ∧
      charged.reservedBytes = charged.temporaryBytes + sizeBytes + charged.partialTotal ∧
      charged.reservedBytes ≤ charged.budgetBytes := by
  have hpart := partialTotal_erase session url
  have haccounted := h.accounted
  simp only [Session.charge] at hcharge
  split at hcharge
  · cases hcharge
  · rename_i hsize
    split at hcharge
    · rename_i hfits
      obtain ⟨hadditional, hfits⟩ := hfits
      cases hcharge
      refine ⟨rfl, ?_, ?_⟩
      · simp only [Session.temporaryBytes, Session.partialTotal] at haccounted hpart ⊢
        omega
      · simp only
        omega
    · cases hcharge

theorem insertRecord_temporaryBytes {session : Session Url} {record : PreparedRecord Url}
    (hfree : session.recordsByVariant.lookup record.variantId = none) :
    (session.insertRecord record).temporaryBytes =
      recordCharge record.variantId record + session.temporaryBytes :=
  Table.total_insert hfree

theorem register_balanced {P : Platform Url} {session session' : Session Url}
    {record : PreparedRecord Url} (h : Balanced session)
    (hregister : session.registerPreparedFile P record = .ok session') : Balanced session' := by
  unfold Session.registerPreparedFile at hregister
  split at hregister
  · cases hregister
  split at hregister
  · cases hregister
  rename_i hguard
  have hfree : session.recordsByVariant.lookup record.variantId = none := by
    simp only [Bool.or_eq_true, not_or, Bool.not_eq_true, Option.isSome_eq_false_iff,
      Option.isNone_iff_eq_none] at hguard
    exact hguard.2
  split at hregister
  · rename_i htemporary
    cases hcharge : session.charge record.url record.sizeBytes with
    | error e =>
      rw [hcharge] at hregister
      cases hregister
    | ok charged =>
      rw [hcharge] at hregister
      cases hregister
      obtain ⟨hrecords, haccounted, hwithin⟩ := charge_spec h hcharge
      rw [← hrecords] at hfree
      have hbytes := insertRecord_temporaryBytes hfree
      refine ⟨?_, hwithin⟩
      rw [hbytes, recordCharge, if_pos htemporary]
      change charged.reservedBytes =
        record.sizeBytes + charged.temporaryBytes + charged.partialTotal
      omega
  · rename_i htemporary
    cases hregister
    refine ⟨?_, h.within⟩
    rw [insertRecord_temporaryBytes hfree, recordCharge, if_neg htemporary, Nat.zero_add]
    exact h.accounted

theorem reserve_balanced {session session' : Session Url} {url : Url} {bytes : Nat}
    (h : Balanced session) (hreserve : session.reserveTemporaryChunk url bytes = .ok session') :
    Balanced session' := by
  have hpart := partialTotal_erase session url
  have haccounted := h.accounted
  unfold Session.reserveTemporaryChunk at hreserve
  split at hreserve
  · cases hreserve
  split at hreserve
  · rename_i hfits
    obtain ⟨hbytes, hfits⟩ := hfits
    cases hreserve
    refine ⟨?_, ?_⟩
    · simp only [Session.temporaryBytes, Session.partialTotal, Table.total_insert_eq] at *
      omega
    · simp only
      omega
  · cases hreserve

theorem discard_balanced {session : Session Url} (h : Balanced session) (url : Url) :
    Balanced (session.discardTemporaryReservation url) := by
  have hpart := partialTotal_erase session url
  have haccounted := h.accounted
  have hle := h.part_le url
  have hwithin := h.within
  unfold Session.discardTemporaryReservation
  constructor
  · simp only [Session.temporaryBytes, Session.partialTotal, Nat.min_eq_left hle] at *
    omega
  · simp only
    omega

theorem release_balanced {session session' : Session Url} {url : Url} {record : PreparedRecord Url}
    (h : Balanced session) (hrelease : session.release url = some (record, session')) :
    Balanced session' := by
  unfold Session.release at hrelease
  split at hrelease
  · cases hrelease
  · rename_i variantId _
    obtain ⟨found, hfound, heq⟩ := Option.map_eq_some_iff.mp hrelease
    cases heq
    have htotal := Table.total_erase (f := recordCharge) hfound
    have haccounted := h.accounted
    have hle := h.record_le hfound
    have hwithin := h.within
    unfold Session.removeRecord
    unfold recordCharge at htotal hle
    constructor
    · simp only [Session.temporaryBytes, Session.partialTotal] at *
      split <;> rename_i htemporary
      · rw [if_pos htemporary] at htotal hle
        rw [if_pos hle]
        unfold recordCharge at *
        omega
      · rw [if_neg htemporary] at htotal
        unfold recordCharge at *
        omega
    · simp only
      split
      · split <;> omega
      · exact hwithin

/-- Every change of a session keeps it balanced. -/
theorem balanced_kept (P : Platform Url) : Kept P (fun _ _ => True) Balanced where
  fresh _ := ⟨rfl, Nat.zero_le _⟩
  cancel _ h := ⟨h.accounted, h.within⟩
  operations _ _ h := ⟨h.accounted, h.within⟩
  register _ _ _ h _ hregister := register_balanced h hregister
  reserve _ _ _ _ h hreserve := reserve_balanced h hreserve
  discard _ url h := discard_balanced h url
  release _ _ _ _ h hrelease := release_balanced h hrelease
  cacheHash session variantId sha256 h := by
    unfold Session.cacheHash
    split
    · exact ⟨h.accounted, h.within⟩
    · exact h

/-- **Temporary storage is accounted for** after any sequence of calls: the charge of a session is
the size of its temporary records and its unfinished files and within the budget, no subtraction
goes below zero, and a call that throws leaves the store as it is. -/
theorem temporary_storage_accounted {P : Platform Url} {s : Store Url}
    (hrun : Run (Store.step P) (fun _ _ => True) {} s) :
    (∀ sessionRef session, s.sessions.lookup sessionRef = some session →
      session.reservedBytes = session.temporaryBytes + session.partialTotal ∧
        session.reservedBytes ≤ session.budgetBytes ∧
        (∀ url, (session.partialBytes.lookup url).getD 0 ≤ session.reservedBytes) ∧
        ∀ variantId record, session.recordsByVariant.lookup variantId = some record →
          record.temporary = true → record.sizeBytes ≤ session.reservedBytes) ∧
      ∀ c e, (s.perform P c).1 = some e → (s.perform P c).2 = s := by
  refine ⟨fun ref session hsession => ?_, fun c e h => perform_throws h⟩
  have hadmits : Run (Store.step P) (Store.Admits P fun _ _ => True) {} s :=
    hrun.upgrade fun _ _ _ _ _ _ _ _ _ => trivial
  have h := all_of_run (balanced_kept P) hadmits ref session hsession
  refine ⟨h.accounted, h.within, h.part_le, fun variantId record hrecord htemporary => ?_⟩
  have hle := h.record_le hrecord
  rwa [recordCharge, if_pos htemporary] at hle

/-- Two chunks of `a` become a record, one chunk of `b` is pending, and a second file does not fit
into the budget. -/
theorem temporary_storage_accounted_chunks :
    ∃ s : Store String, Run (Store.step .plain) (fun _ _ => True) {} s ∧
      ∃ session, s.sessions.lookup "t" = some session ∧ session.reservedBytes = 60 ∧
        session.reservedBytes = session.temporaryBytes + session.partialTotal := by
  obtain ⟨s, hrun, htest⟩ := Run.exists_of_exec (Store.step .plain) (P := fun _ _ => True)
    (fun _ _ => true)
    (fun s => (s.sessions.lookup "t").any fun session => session.reservedBytes == 60) {}
    [.begin_ "t" (some 1000000100), .reserveTemporaryChunk "t" "a" 20,
      .reserveTemporaryChunk "t" "a" 20,
      .registerPreparedFile "t" "v" "a" 50 true .photoResource none
        (some ⟨some true, some 50, some 1⟩) 0,
      .reserveTemporaryChunk "t" "b" 10, .reserveTemporaryChunk "t" "c" 50]
    (fun _ _ _ => trivial) (by decide)
  cases hsession : s.sessions.lookup "t" with
  | none =>
    rw [hsession] at htest
    cases htest
  | some session =>
    rw [hsession, Option.any_some, beq_iff_eq] at htest
    exact ⟨s, hrun, session, hsession, htest,
      ((temporary_storage_accounted hrun).1 "t" session hsession).1⟩

end Preparation

end LocalMediaTransfer
