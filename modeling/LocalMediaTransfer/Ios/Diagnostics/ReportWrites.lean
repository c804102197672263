import Mathlib.Tactic
import LocalMediaTransfer.Lib.Run

/-!
# The writes of the diagnostic report

`queueWrite` and `finish` of `services/diagnostics/TransferDiagnostics.ts`: the writes wait behind
one promise chain, and a write that is scheduled takes up every revision queued before its last
check.  A step is what runs up to the next await; when an await is done is chosen with the step. 
The report itself is opaque.

* `ReportWriter`, `queueWrite`, `writeLoop` — the fields and the functions.
* `Unsuperseded` — no write fails that a waiting `finish` has superseded.
* `WriteInv` — what the chain still owes to every `finish`.
* `final_report_written` — in every run that meets `Unsuperseded`, a `finish` that resolves has seen
  its revision, or a later one, persisted or failed; and revisions are persisted in order.
* `final_report_lost` — an earlier write fails after `finish` was called.
-/

set_option autoImplicit false

namespace LocalMediaTransfer

open Lib

/-- Where the first unsettled link of the chain stands. -/
inductive WriteLink (Report : Type) where
  /-- Its function has not been called yet. -/
  | waiting
  /-- `await persistDiagnosticReport(snapshot)`. -/
  | persisting (targetRevision : Nat) (snapshot : Report)
  /-- The function has returned. -/
  | returned
  /-- The function has thrown; the catch handler is next. -/
  | thrown
  deriving DecidableEq

structure ReportWriter (Report : Type) where
  report : Report
  /-- `filesystemAvailable()`. -/
  filesystemAvailable : Bool
  revision : Nat := 0
  persistedRevision : Nat := 0
  hasPersistedReport : Bool := false
  writeScheduled : Bool := false
  /-- The links of `writeChain`, and how many of them have settled. -/
  chained : Nat := 0
  settled : Nat := 0
  link : WriteLink Report := .waiting
  /-- The reports persisted, the newest first. -/
  persisted : List (Nat × Report) := []
  /-- The revisions whose write failed. -/
  failed : List Nat := []
  /-- The calls of `finish`: the number of links behind its promise, and its revision. -/
  finishes : List (Nat × Nat) := []
  deriving DecidableEq

namespace ReportWriter

variable {Report : Type} (s : ReportWriter Report)

/-- `queueWrite`, after the caller has changed the report. -/
def queueWrite (report : Report) : ReportWriter Report :=
  if s.writeScheduled then { s with report, revision := s.revision + 1 }
  else
    { s with
      report
      revision := s.revision + 1
      writeScheduled := true
      chained := s.chained + 1 }

/-- `finish`; its promise is the chain as it then is. -/
def finish (report : Report) : ReportWriter Report :=
  let s' := s.queueWrite report
  { s' with finishes := (s'.chained, s'.revision) :: s'.finishes }

/-- The loop, from its condition to its next await or through the finally block. -/
def writeLoop : ReportWriter Report :=
  if s.persistedRevision < s.revision then
    if s.filesystemAvailable then { s with link := .persisting s.revision s.report }
    else
      { s with persistedRevision := s.revision, writeScheduled := false, link := .returned }
  else { s with writeScheduled := false, link := .returned }

/-- `persistDiagnosticReport` resolves. -/
def persist (targetRevision : Nat) (snapshot : Report) : ReportWriter Report :=
  { s with
    persisted := (targetRevision, snapshot) :: s.persisted
    hasPersistedReport := true
    persistedRevision := targetRevision }

/-- `persistDiagnosticReport` rejects: the finally block. -/
def reject (targetRevision : Nat) : ReportWriter Report :=
  { s with failed := targetRevision :: s.failed, writeScheduled := false, link := .thrown }

end ReportWriter

inductive WriteAction (Report : Type) where
  /-- The report changes without a call of `queueWrite`. -/
  | change (report : Report)
  | queueWrite (report : Report)
  | finish (report : Report)
  /-- The chain goes on with its next link. -/
  | run
  | resolve
  | reject
  /-- The promise of a link settles; after an exception its catch handler runs. -/
  | settle
  deriving DecidableEq

namespace ReportWriter

variable {Report : Type} {s t : ReportWriter Report}

def step (s : ReportWriter Report) : WriteAction Report → Option (ReportWriter Report)
  | .change report => some { s with report }
  | .queueWrite report => some (s.queueWrite report)
  | .finish report => some (s.finish report)
  | .run =>
    match s.link with
    | .waiting => if s.settled < s.chained then some s.writeLoop else none
    | _ => none
  | .resolve =>
    match s.link with
    | .persisting targetRevision snapshot => some (s.persist targetRevision snapshot).writeLoop
    | _ => none
  | .reject =>
    match s.link with
    | .persisting targetRevision _ => some (s.reject targetRevision)
    | _ => none
  | .settle =>
    match s.link with
    | .returned => some { s with settled := s.settled + 1, link := .waiting }
    | .thrown =>
      some { s with writeScheduled := false, settled := s.settled + 1, link := .waiting }
    | _ => none

/-! ## Statements -/

/-- A revision from `revision` on has been persisted, or its write has failed. -/
def Attempted (s : ReportWriter Report) (revision : Nat) : Prop :=
  ∃ r, revision ≤ r ∧ r ≤ s.revision ∧ ((∃ report, (r, report) ∈ s.persisted) ∨ r ∈ s.failed)

/-- A write that fails is not one that a `finish` waits behind for a later revision. -/
def Unsuperseded (s : ReportWriter Report) : WriteAction Report → Prop
  | .reject => ∀ targetRevision snapshot, s.link = .persisting targetRevision snapshot →
      ∀ revision, (s.settled + 1, revision) ∈ s.finishes → revision ≤ targetRevision
  | _ => True

/-! ## What the chain owes -/

/-- One of the first `links` links has a check of the loop before it. -/
def Owes (s : ReportWriter Report) (links : Nat) : Prop :=
  s.settled < links ∧ (s.link = .waiting ∨ (∃ r report, s.link = .persisting r report) ∨
    s.settled + 1 < links)

/-- **What holds between any two steps.** -/
structure WriteInv (s : ReportWriter Report) : Prop where
  available : s.filesystemAvailable = true
  scheduled : s.writeScheduled = true → s.Owes s.chained
  le : s.persistedRevision ≤ s.revision
  last : s.persistedRevision = 0 ∨ ∃ report, (s.persistedRevision, report) ∈ s.persisted
  target : ∀ r report, s.link = .persisting r report → s.persistedRevision < r ∧ r ≤ s.revision
  below : ∀ r report, (r, report) ∈ s.persisted → r ≤ s.persistedRevision
  ordered : (s.persisted.map (·.1)).Pairwise (· > ·)
  settled_le : s.settled ≤ s.chained
  busy : s.link ≠ .waiting → s.settled < s.chained
  finishes : ∀ links revision, (links, revision) ∈ s.finishes →
    0 < revision ∧ revision ≤ s.revision ∧ (s.Attempted revision ∨ s.Owes links)

theorem Attempted.mono {revision : Nat} (h : s.Attempted revision)
    (hrevision : s.revision ≤ t.revision)
    (hpersisted : ∀ x ∈ s.persisted, x ∈ t.persisted) (hfailed : ∀ r ∈ s.failed, r ∈ t.failed) :
    t.Attempted revision := by
  obtain ⟨r, hle, hr, hor⟩ := h
  refine ⟨r, hle, hr.trans hrevision, hor.imp ?_ (hfailed r)⟩
  rintro ⟨report, hmem⟩
  exact ⟨report, hpersisted _ hmem⟩

theorem WriteInv.change (h : WriteInv s) (report : Report) : WriteInv { s with report } :=
  ⟨h.available, h.scheduled, h.le, h.last, h.target, h.below, h.ordered, h.settled_le,
    h.busy, h.finishes⟩

theorem queueWrite_chained (s : ReportWriter Report) (report : Report) :
    s.chained ≤ (s.queueWrite report).chained := by
  unfold queueWrite
  split
  · exact Nat.le_refl _
  · exact Nat.le_succ _

theorem queueWrite_revision (s : ReportWriter Report) (report : Report) :
    (s.queueWrite report).revision = s.revision + 1 := by
  unfold queueWrite
  split <;> rfl

/-- After `queueWrite` the whole chain owes a check of the loop. -/
theorem WriteInv.queueWrite_owes (h : WriteInv s) (report : Report) :
    (s.queueWrite report).Owes (s.queueWrite report).chained := by
  unfold queueWrite
  split
  · exact h.scheduled ‹_›
  · refine ⟨?_, ?_⟩
    · by_cases hlink : s.link = .waiting
      · have hle : s.settled ≤ s.chained := h.settled_le
        exact Nat.lt_succ_of_le hle
      · exact Nat.lt_succ_of_lt (h.busy hlink)
    · by_cases hlink : s.link = .waiting
      · exact Or.inl hlink
      · exact Or.inr (Or.inr (Nat.succ_lt_succ (h.busy hlink)))

theorem WriteInv.queueWrite (h : WriteInv s) (report : Report) : WriteInv
    (s.queueWrite report) := by
  have howes := h.queueWrite_owes report
  have hchained := queueWrite_chained s report
  have hrevision := queueWrite_revision s report
  have hsame : (s.queueWrite report).filesystemAvailable = s.filesystemAvailable ∧
      (s.queueWrite report).persistedRevision = s.persistedRevision ∧
      (s.queueWrite report).settled = s.settled ∧ (s.queueWrite report).link = s.link ∧
      (s.queueWrite report).persisted = s.persisted ∧ (s.queueWrite report).failed = s.failed ∧
      (s.queueWrite report).finishes = s.finishes := by
    unfold ReportWriter.queueWrite
    split <;> exact ⟨rfl, rfl, rfl, rfl, rfl, rfl, rfl⟩
  obtain ⟨havailable, hpersistedRevision, hsettled, hlink, hpersisted, hfailed, hfinishes⟩ := hsame
  refine ⟨havailable.trans h.available, fun _ => howes, ?_, ?_, ?_, ?_, ?_, ?_, ?_, ?_⟩
  · rw [hpersistedRevision, hrevision]
    exact Nat.le_succ_of_le h.le
  · rw [hpersistedRevision, hpersisted]
    exact h.last
  · intro r report' hr
    rw [hlink] at hr
    rw [hpersistedRevision, hrevision]
    exact ⟨(h.target r report' hr).1, Nat.le_succ_of_le (h.target r report' hr).2⟩
  · rw [hpersistedRevision, hpersisted]
    exact h.below
  · rw [hpersisted]
    exact h.ordered
  · rw [hsettled]
    exact h.settled_le.trans hchained
  · intro hbusy
    rw [hlink] at hbusy
    rw [hsettled]
    exact (h.busy hbusy).trans_le hchained
  · intro links revision hmem
    rw [hfinishes] at hmem
    obtain ⟨hpos, hle, hor⟩ := h.finishes links revision hmem
    refine ⟨hpos, by omega, hor.imp (fun ha => ?_) fun ho => ?_⟩
    · exact ha.mono (by omega) (by rw [hpersisted]; exact fun _ hx => hx)
        (by rw [hfailed]; exact fun _ hx => hx)
    · unfold Owes
      rw [hsettled, hlink]
      exact ho

theorem WriteInv.finish (h : WriteInv s) (report : Report) : WriteInv (s.finish report) := by
  have hqueued := h.queueWrite report
  refine ⟨hqueued.available, hqueued.scheduled, hqueued.le, hqueued.last, hqueued.target,
    hqueued.below, hqueued.ordered, hqueued.settled_le, hqueued.busy, ?_⟩
  intro links revision hmem
  rcases List.mem_cons.mp hmem with heq | hmem
  · cases heq
    refine ⟨?_, Nat.le_refl _, Or.inr (h.queueWrite_owes report)⟩
    rw [queueWrite_revision]
    exact Nat.succ_pos _
  · exact hqueued.finishes links revision hmem

/-- The loop takes the last revision up, or everything owed has been persisted. -/
theorem WriteInv.writeLoop (h : WriteInv s) (hsettled : s.settled < s.chained) :
    WriteInv s.writeLoop := by
  unfold ReportWriter.writeLoop
  split
  · rename_i hlt
    rw [if_pos h.available]
    have howes : ∀ {links}, s.Owes links →
        Owes { s with link := .persisting s.revision s.report } links := fun ho =>
      ⟨ho.1, Or.inr (Or.inl ⟨_, _, rfl⟩)⟩
    refine ⟨h.available, fun hs => howes (h.scheduled hs), h.le, h.last, ?_, h.below, h.ordered,
      h.settled_le, fun _ => hsettled, ?_⟩
    · intro r report hr
      cases hr
      exact ⟨hlt, Nat.le_refl _⟩
    · intro links revision hmem
      obtain ⟨hpos, hle, hor⟩ := h.finishes links revision hmem
      exact ⟨hpos, hle, hor.imp_right howes⟩
  · rename_i hge
    have hlast : s.persistedRevision = s.revision := Nat.le_antisymm h.le (Nat.le_of_not_lt hge)
    refine ⟨h.available, fun hs =>
      (Bool.false_ne_true hs).elim, h.le, h.last, ?_, h.below, h.ordered,
      h.settled_le, fun _ => hsettled, ?_⟩
    · intro r report hr
      cases hr
    · intro links revision hmem
      obtain ⟨hpos, hle, -⟩ := h.finishes links revision hmem
      refine ⟨hpos, hle, Or.inl ⟨s.persistedRevision, by omega, h.le, Or.inl ?_⟩⟩
      exact h.last.resolve_left (by omega)

theorem WriteInv.persist (h : WriteInv s) {r : Nat} {report : Report}
    (hlink : s.link = .persisting r report) :
    WriteInv { s.persist r report with link := .waiting } := by
  obtain ⟨hlt, hle⟩ := h.target r report hlink
  have howes : ∀ {links}, s.Owes links →
      Owes { s.persist r report with link := .waiting } links := fun ho => ⟨ho.1, Or.inl rfl⟩
  refine ⟨h.available, fun hs => howes (h.scheduled hs), hle, ?_, ?_, ?_, ?_, h.settled_le, ?_, ?_⟩
  · exact Or.inr ⟨report, List.mem_cons_self⟩
  · intro r' report' hr
    cases hr
  · intro r' report' hmem
    rcases List.mem_cons.mp hmem with heq | hmem
    · cases heq
      exact Nat.le_refl _
    · exact (h.below r' report' hmem).trans hlt.le
  · refine List.pairwise_cons.mpr ⟨fun r' hr' => ?_, h.ordered⟩
    obtain ⟨⟨r'', report''⟩, hmem, rfl⟩ := List.mem_map.mp hr'
    exact (h.below r'' report'' hmem).trans_lt hlt
  · exact fun hbusy => absurd rfl hbusy
  · intro links revision hmem
    obtain ⟨hpos, hrevision, hor⟩ := h.finishes links revision hmem
    refine ⟨hpos, hrevision, hor.imp (fun ha => ?_) howes⟩
    exact ha.mono (Nat.le_refl _) (fun x hx => List.mem_cons_of_mem _ hx) fun _ hr => hr

theorem WriteInv.reject (h : WriteInv s) {r : Nat} {report : Report}
    (hlink : s.link = .persisting r report)
    (hsuperseded : ∀ revision, (s.settled + 1, revision) ∈ s.finishes → revision ≤ r) :
    WriteInv (s.reject r) := by
  obtain ⟨-, hle⟩ := h.target r report hlink
  refine ⟨h.available, fun hs => (Bool.false_ne_true hs).elim, h.le, h.last, ?_, h.below, h.ordered,
    h.settled_le, fun _ => h.busy (by rw [hlink]; simp), ?_⟩
  · intro r' report' hr
    cases hr
  · intro links revision hmem
    obtain ⟨hpos, hrevision, hor⟩ := h.finishes links revision hmem
    refine ⟨hpos, hrevision, ?_⟩
    rcases hor with ha | ho
    · exact Or.inl (ha.mono (Nat.le_refl _) (fun _ hx => hx) fun _ hr => List.mem_cons_of_mem _ hr)
    · by_cases hlast : links = s.settled + 1
      · subst hlast
        exact Or.inl ⟨r, hsuperseded revision hmem, hle, Or.inr List.mem_cons_self⟩
      · have hlt := ho.1
        exact Or.inr ⟨hlt, Or.inr (Or.inr (by simp only [ReportWriter.reject]; omega))⟩

/-- A link that has no check of the loop before it settles. -/
theorem WriteInv.settle (h : WriteInv s) (hwaiting : s.link ≠ .waiting)
    (hpersisting : ∀ r report, s.link ≠ .persisting r report) (scheduled : Bool)
    (hscheduled : scheduled = true → s.writeScheduled = true) :
    WriteInv { s with
      writeScheduled := scheduled, settled := s.settled + 1, link := .waiting } := by
  have howes : ∀ {links}, s.Owes links → Owes { s with
      writeScheduled := scheduled, settled := s.settled + 1, link := .waiting } links := by
    rintro links ⟨-, hw | ⟨r, report, hp⟩ | hlt⟩
    · exact absurd hw hwaiting
    · exact absurd hp (hpersisting r report)
    · exact ⟨hlt, Or.inl rfl⟩
  refine ⟨h.available, fun hs => howes (h.scheduled (hscheduled hs)), h.le, h.last, ?_, h.below,
    h.ordered, h.busy hwaiting, fun hbusy => absurd rfl hbusy, ?_⟩
  · intro r report hr
    cases hr
  · intro links revision hmem
    obtain ⟨hpos, hle, hor⟩ := h.finishes links revision hmem
    exact ⟨hpos, hle, hor.imp_right howes⟩

theorem WriteInv.step (h : WriteInv s) {action : WriteAction Report}
    (hok : s.Unsuperseded action) (hstep : s.step action = some t) : WriteInv t := by
  cases action with
  | change report =>
    cases hstep
    exact h.change report
  | queueWrite report =>
    cases hstep
    exact h.queueWrite report
  | finish report =>
    cases hstep
    exact h.finish report
  | run =>
    simp only [ReportWriter.step] at hstep
    split at hstep
    · split at hstep
      · rename_i hsettled
        cases hstep
        exact h.writeLoop hsettled
      · cases hstep
    · cases hstep
  | resolve =>
    simp only [ReportWriter.step] at hstep
    split at hstep
    · rename_i r report hlink
      cases hstep
      exact (h.persist hlink).writeLoop (h.busy (by rw [hlink]; simp))
    · cases hstep
  | reject =>
    simp only [ReportWriter.step] at hstep
    split at hstep
    · rename_i r report hlink
      cases hstep
      exact h.reject hlink (hok r report hlink)
    · cases hstep
  | settle =>
    simp only [ReportWriter.step] at hstep
    split at hstep
    · rename_i hlink
      cases hstep
      exact h.settle (by rw [hlink]; simp) (by rw [hlink]; simp) s.writeScheduled id
    · rename_i hlink
      cases hstep
      exact h.settle (by rw [hlink]; simp) (by rw [hlink]; simp) false fun hs =>
        (Bool.false_ne_true hs).elim
    · cases hstep

theorem writeInv_initial (report : Report) :
    WriteInv { report, filesystemAvailable := true } := by
  refine ⟨rfl, fun hs => (Bool.false_ne_true hs).elim, Nat.le_refl _, Or.inl rfl, ?_, ?_, .nil,
    Nat.le_refl _, fun hbusy => absurd rfl hbusy, ?_⟩
  · intro r report' hr
    cases hr
  · intro r report' hr
    cases hr
  · intro links revision hmem
    cases hmem

/-! ## The final report -/

/-- **In every run in which no write fails that a waiting `finish` has superseded, a `finish` that
resolves has seen its revision attempted, and no revision is persisted after a newer one.** -/
theorem final_report_written {report : Report}
    (hrun : Run ReportWriter.step Unsuperseded { report, filesystemAvailable := true } s) :
    (∀ links revision, (links, revision) ∈ s.finishes → links ≤ s.settled →
      s.Attempted revision) ∧ (s.persisted.map (·.1)).Pairwise (· > ·) := by
  have hinv : WriteInv s := hrun.invariant (I := WriteInv) (writeInv_initial report)
    fun _ _ _ h hok hstep => h.step hok hstep
  refine ⟨fun links revision hmem hsettled => ?_, hinv.ordered⟩
  obtain ⟨-, -, ha | ho⟩ := hinv.finishes links revision hmem
  · exact ha
  · exact absurd ho.1 (Nat.not_lt.mpr hsettled)

/-- The check of `Unsuperseded`. -/
def unsupersededTest (s : ReportWriter Report) : WriteAction Report → Bool
  | .reject =>
    match s.link with
    | .persisting targetRevision _ =>
      s.finishes.all fun finish => decide (finish.2 ≤ targetRevision)
    | _ => true
  | _ => true

theorem unsuperseded_of_test {action : WriteAction Report} (h : s.unsupersededTest action = true) :
    s.Unsuperseded action := by
  cases action with
  | reject =>
    intro r report hlink revision hmem
    simp only [unsupersededTest, hlink, List.all_eq_true, decide_eq_true_eq] at h
    exact h _ hmem
  | _ => trivial

/-- The write of a running transfer fails, and `finish` schedules another. -/
theorem final_report_written_again :
    ∃ s : ReportWriter Nat, Run ReportWriter.step Unsuperseded
        { report := 0, filesystemAvailable := true } s ∧ s.persisted = [(2, 9)] ∧ s.failed = [1] ∧
      s.Attempted 2 := by
  obtain ⟨s, hrun, htest⟩ := Run.exists_of_exec ReportWriter.step (P := Unsuperseded)
    unsupersededTest
    (fun s => decide ((s.persisted, s.failed, s.finishes, s.settled) =
      ([(2, 9)], [1], [(2, 2)], 2)))
    ({ report := 0, filesystemAvailable := true } : ReportWriter Nat)
    [.queueWrite 1, .run, .reject, .finish 9, .settle, .run, .resolve, .settle]
    (fun _ _ => unsuperseded_of_test) (by decide)
  obtain ⟨hpersisted, hrest⟩ := Prod.mk.inj (of_decide_eq_true htest)
  obtain ⟨hfailed, hrest⟩ := Prod.mk.inj hrest
  obtain ⟨hfinishes, hsettled⟩ := Prod.mk.inj hrest
  refine ⟨s, hrun, hpersisted, hfailed, (final_report_written hrun).1 2 2 ?_ (by omega)⟩
  rw [hfinishes]
  exact List.mem_cons_self

/-- A write fails after `finish` was called behind it: the final revision is never attempted. -/
theorem final_report_lost :
    ∃ s : ReportWriter Nat, Run ReportWriter.step (fun _ _ => True)
        { report := 0, filesystemAvailable := true } s ∧ s.finishes = [(1, 2)] ∧ s.settled = 1 ∧
      s.chained = 1 ∧ s.persisted = [] ∧ s.failed = [1] ∧ ¬ s.Attempted 2 := by
  obtain ⟨s, hrun, htest⟩ := Run.exists_of_exec ReportWriter.step (P := fun _ _ => True)
    (fun _ _ => true)
    (fun s => decide ((s.persisted, s.failed, s.finishes, s.settled, s.chained) =
      ([], [1], [(1, 2)], 1, 1)))
    ({ report := 0, filesystemAvailable := true } : ReportWriter Nat)
    [.queueWrite 1, .run, .finish 9, .reject, .settle]
    (fun _ _ _ => trivial) (by decide)
  obtain ⟨hpersisted, hrest⟩ := Prod.mk.inj (of_decide_eq_true htest)
  obtain ⟨hfailed, hrest⟩ := Prod.mk.inj hrest
  obtain ⟨hfinishes, hrest⟩ := Prod.mk.inj hrest
  obtain ⟨hsettled, hchained⟩ := Prod.mk.inj hrest
  refine ⟨s, hrun, hfinishes, hsettled, hchained, hpersisted, hfailed, ?_⟩
  rintro ⟨r, hle, -, ⟨report, hmem⟩ | hmem⟩
  · rw [hpersisted] at hmem
    cases hmem
  · rw [hfailed, List.mem_singleton] at hmem
    omega

end ReportWriter

end LocalMediaTransfer
