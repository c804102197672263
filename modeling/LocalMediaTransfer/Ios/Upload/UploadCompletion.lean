import LocalMediaTransfer.Ios.Upload.UploadSound

/-!
# A run that completes has handed on every file

* `Stopped` — the finally block is over; nothing but a cancel is reported from then on.
* `Completion` — what is known of a run that called `onComplete`.
* `completion_of_complete` — **its summary was made in an undisturbed state in which no task held a
  file, and no file was reported since**.
-/

set_option autoImplicit false

namespace LocalMediaTransfer

open Lib UploadRun RunControl

namespace UploadRun

variable {cfg : UploadConfig} {s s' t : UploadRun} {l : RunLabel}

/-! ## After `onComplete` -/

/-- The function is at the end of its finally block, and no task acts on a file. -/
structure Stopped (s : UploadRun) : Prop where
  ending : s.main.isEnding = true
  drained : s.Drained
  producer : s.producer.isActive = false
  enqueuer : s.enqueuer.isActive = false

theorem Stopped.of_eq (h : s.Stopped) (hdrained : s'.Drained) (hmain : s'.main = s.main)
    (hproducer : s'.producer = s.producer) (henqueuer : s'.enqueuer = s.enqueuer) : s'.Stopped where
  ending := by rw [hmain]; exact h.ending
  drained := hdrained
  producer := by rw [hproducer]; exact h.producer
  enqueuer := by rw [henqueuer]; exact h.enqueuer

theorem Stopped.main_ne (h : s.Stopped) (main : MainPc) (hmain : main.isEnding = false) :
    s.main ≠ main := by
  intro heq
  have hending := h.ending
  rw [heq, hmain] at hending
  cases hending

/-- Nothing but a cancel is reported after the run has stopped. -/
theorem Stopped.step (h : s.Stopped) (hp : s.Parked) (hs : runStep cfg s l = some s') : s'.Stopped ∧
    ∃ new, s'.ledger = { s.ledger with log := s.log ++ new } ∧ ∀ e ∈ new, e.isQuiet = true := by
  have hledger := runStep_ledger hp hs
  have hdrained := h.drained.step h.producer hledger
  constructor
  · cases l with
    | cancel =>
      simp only [runStep] at hs
      split at hs
      · cases hs
      · cases hs
        exact h.of_eq hdrained rfl rfl rfl
    | thermalChanged state =>
      cases hs
      exact h.of_eq hdrained rfl rfl rfl
    | begun succeeds =>
      simp only [runStep, if_neg (h.main_ne .beginTransfer rfl)] at hs
      cases hs
    | thermalRead state =>
      simp only [runStep, if_neg (h.main_ne .thermalState rfl)] at hs
      cases hs
    | pinged succeeds =>
      simp only [runStep, if_neg (h.main_ne .ping rfl)] at hs
      cases hs
    | main =>
      simp only [runStep, mainStep] at hs
      have hending := h.ending
      cases hm : s.main <;> rw [hm] at hending hs <;> try (cases hending; done)
      · cases hs
        exact ⟨rfl, hdrained, h.producer, h.enqueuer⟩
      · cases hs
        exact ⟨rfl, hdrained, h.producer, h.enqueuer⟩
      · cases hs
    | settle =>
      simp only [runStep, settle] at hs
      split at hs
      · rename_i hm
        exact absurd hm (h.main_ne _ rfl)
      · rename_i hm
        exact absurd hm (h.main_ne _ rfl)
      · cases hs
    | producer =>
      simp only [runStep, producerStep] at hs
      have hquiet := h.producer
      cases hpc : s.producer <;> rw [hpc] at hquiet hs <;> try (cases hquiet; done)
      · cases hs
      · simp only at hs
        rw [if_neg fun hcond => h.main_ne _ rfl hcond.2] at hs
        cases hs
      · cases hs
    | prepared window =>
      simp only [runStep, prepared] at hs
      have hquiet := h.producer
      cases hpc : s.producer <;> rw [hpc] at hquiet hs <;> first | (cases hquiet; done) | cases hs
    | preflightDone peers =>
      simp only [runStep, preflightDone] at hs
      have hquiet := h.producer
      cases hpc : s.producer <;> rw [hpc] at hquiet hs <;> first | (cases hquiet; done) | cases hs
    | enqueuer =>
      simp only [runStep, enqueuerStep] at hs
      have hquiet := h.enqueuer
      cases hpc : s.enqueuer <;> rw [hpc] at hquiet hs <;> first | (cases hquiet; done) | cases hs
    | worker w =>
      have hcontrol := workerStep_control hs
      exact h.of_eq hdrained (congrArg RunControl.main hcontrol)
        (congrArg RunControl.producer hcontrol) (congrArg RunControl.enqueuer hcontrol)
    | acknowledged w reportedBytes =>
      simp only [runStep] at hs
      split at hs
      · cases hs
        exact h.of_eq hdrained rfl rfl rfl
      · cases hs
    | uploaded w reply =>
      simp only [runStep] at hs
      split at hs
      · rename_i file acknowledgedBytes hw
        exact (h.drained.not_working (w := w) ⟨fun _ _ => 1, by rw [hw]; exact Nat.one_pos⟩).elim
      · cases hs
  · have hquiet := h.producer
    cases hledger with
    | carried hcarries => exact hcarries.ledger
    | prepared hpc =>
      rw [hpc] at hquiet
      cases hquiet
    | preflight hpc =>
      rw [hpc] at hquiet
      cases hquiet
    | counted hpc =>
      rw [hpc] at hquiet
      cases hquiet
    | skipped hw | refused hw | acknowledged hw | saved hw | verified hw | failed hw =>
      exact (h.drained.not_working ⟨fun _ _ => 1, by rw [hw]; exact Nat.one_pos⟩).elim
    | concluded hm => exact absurd hm (h.main_ne _ rfl)
    | completed hm => exact absurd hm (h.main_ne _ rfl)

/-- Everything about a run that completed: the state `s` in which its summary was about to be
reported, and what was reported since. -/
structure Completion (cfg : UploadConfig) (s t : UploadRun) (summary : UploadSummary) : Prop where
  main : s.main = .logDone summary
  undisturbed : ¬s.Disturbed
  drained : s.Drained
  stopped : t.Stopped
  ledger : ∃ new, t.ledger = { s.ledger with log := s.log ++ .complete summary :: new } ∧
    ∀ e ∈ new, e.isQuiet = true

/-- A completion is reported in one step only. -/
theorem complete_of_step {summary : UploadSummary} (hl : LedgerStep cfg s l s')
    (he : .complete summary ∈ s'.log) : .complete summary ∈ s.log ∨
      (l = .main ∧ s.main = .logDone summary ∧ s.isCancelled = false ∧ s'.main = .endTransfer ∧
        s'.producer = s.producer ∧ s'.ledger =
          { s.ledger with log := s.log ++ [.complete summary] }) := by
  have hone : ∀ {ledger : Ledger} {event : RunEvent}, s'.ledger = ledger →
      ledger.log = s.log ++ [event] → .complete summary ∈ s.log ∨ .complete summary = event := by
    intro ledger event hledger hlog
    have heq : s'.log = s.log ++ [event] := (congrArg Ledger.log hledger).trans hlog
    rw [heq] at he
    exact (List.mem_append.mp he).imp_right List.mem_singleton.mp
  cases hl with
  | carried h =>
    left
    obtain ⟨new, hledger, hquiet⟩ := h.ledger
    rw [show s'.log = s.log ++ new from congrArg Ledger.log hledger] at he
    exact (List.mem_append.mp he).resolve_right fun hmem => by cases hquiet _ hmem
  | prepared _ _ h =>
    left
    rw [show s'.log = _ from congrArg Ledger.log h.ledger] at he
    exact mem_of_foldl_markFailure (by rintro _ _ _ ⟨⟩) _ _ he
  | preflight => exact .inl he
  | counted _ h =>
    left
    obtain ⟨new, hledger, hquiet⟩ := h.ledger
    rw [show s'.log = s.log ++ new from congrArg Ledger.log hledger] at he
    exact (List.mem_append.mp he).resolve_right fun hmem => by cases hquiet _ hmem
  | acknowledged => exact .inl he
  | skipped _ _ h => exact .inl ((hone h.ledger rfl).resolve_right nofun)
  | refused _ _ _ h => exact .inl ((hone h.ledger rfl).resolve_right nofun)
  | saved _ _ h => exact .inl ((hone h.ledger rfl).resolve_right nofun)
  | verified _ _ h => exact .inl ((hone h.ledger rfl).resolve_right nofun)
  | failed _ _ h => exact .inl ((hone h.ledger rfl).resolve_right nofun)
  | concluded _ _ _ _ h =>
    left
    rw [show s'.log = _ from congrArg Ledger.log h.ledger] at he
    exact mem_of_foldl_markFailure (by rintro _ _ _ ⟨⟩) _ _ he
  | completed hm hc hproducer hm' h =>
    rcases hone h.ledger rfl with hmem | heq
    · exact .inl hmem
    · cases heq
      exact .inr ⟨rfl, hm, hc, hm', hproducer, h.ledger⟩

/-- **A run that called `onComplete`**: its summary was made in an undisturbed state in which no
task held a file, and nothing but a cancel was reported since. -/
theorem completion_of_complete {ok : UploadRun → RunLabel → Prop} {summary : UploadSummary}
    (hrun : Run (runStep cfg) ok (UploadRun.start cfg) t) (he : .complete summary ∈ t.log) :
    ∃ s, Run (runStep cfg) ok (UploadRun.start cfg) s ∧ Run (runStep cfg) ok s t ∧
      Completion cfg s t summary := by
  induction hrun with
  | refl => exact absurd he List.not_mem_nil
  | @tail u t l hrun hok hs ih =>
    have horderly := orderly_of_run hrun
    have hledger := runStep_ledger horderly.parked hs
    rcases complete_of_step hledger he with
      hmem | ⟨rfl, hm, hc, hm', hproducer, hcomplete⟩
    · obtain ⟨s, hstart, hend, h⟩ := ih hmem
      obtain ⟨hstopped, new', hledger', hquiet'⟩ := h.stopped.step horderly.parked hs
      obtain ⟨new, hsame, hquiet⟩ := h.ledger
      refine ⟨s, hstart, .tail hend hok hs, h.main, h.undisturbed, h.drained, hstopped,
        new ++ new', ?_, ?_⟩
      · have hlog : u.log = s.log ++ .complete summary :: new := congrArg Ledger.log hsame
        rw [hledger', hsame, hlog, List.append_assoc]
        rfl
      · intro e hmem
        exact (List.mem_append.mp hmem).elim (hquiet e) (hquiet' e)
    · have hnd : ¬u.Disturbed := by
        rintro (hcancelled | hfailing | ⟨hclosing, -⟩)
        · rw [hc] at hcancelled
          cases hcancelled
        · rw [hm] at hfailing
          cases hfailing
        · rw [hm] at hclosing
          cases hclosing
      have hsound := horderly.sound hnd
      have hdrained := hsound.drained (by rw [hm]; rfl)
      have hquietEnqueuer := (hsound.ok.quiet (by rw [show u.control.main = _ from hm]; rfl)).2
      have hproducerQuiet := hsound.quiet (by rw [hm]; rfl)
      have hsame : SameWindows u t := mainStep_windows hs
      refine ⟨u, hrun, .tail (.refl u) hok hs, hm, hnd, hdrained, ⟨?_, ?_, ?_, ?_⟩, [], hcomplete,
        fun e hmem => absurd hmem List.not_mem_nil⟩
      · rw [hm']
        rfl
      · exact hdrained.step hproducerQuiet hledger
      · rw [hproducer]
        exact hproducerQuiet
      · rw [hsame.2]
        rcases hquietEnqueuer with hpc | ⟨rejected, hpc⟩ <;> rw [show u.enqueuer =
          _ from hpc] <;> rfl

end UploadRun

end LocalMediaTransfer
