import Mathlib.Tactic
import LocalMediaTransfer.Gui.ServerManager
import LocalMediaTransfer.Lib.Tally

/-!
# What a stop of the server manager leaves behind

The generation fences the old monitor off under the lock.  The launch itself is outside the lock: a
stop that finds the published process not yet started does not kill it, and relies on the disposed
`Process` to refuse the start or on the lifetime job to end it.

* `Apart` — where the steps of a disposal and of `_process.Start()` may not fall.
* `FenceInv` — generations and the owned slot, in every run.
* `ProcessView`, `ProcessInv` — who answers for a running process, over threads of any kind.
* `stop_final` — in every run that meets `Apart`, an old monitor changes neither the state nor the
  owned process, and after a settled stop no process runs.
* `runs_after_stop` — a stop that disposes of the wrapper around `_process.Start()`.
-/

set_option autoImplicit false

namespace LocalMediaTransfer

open Lib

/-! ## Positions -/

namespace Disposal

/-- The process is still to be killed, or its job to be closed. -/
def Early (process : Nat) : Disposal → Prop
  | .check p | .kill p | .closeJob p => p = process
  | _ => False

/-- The job has been read, the `Process` is not disposed yet. -/
def Late (process : Nat) : Disposal → Prop
  | .clearJob p | .disposeProcess p => p = process
  | _ => False

def late (process : Nat) : Disposal → Bool
  | .clearJob p | .disposeProcess p => decide (p = process)
  | _ => false

theorem late_iff {process : Nat} {d : Disposal} : d.late process = true ↔ d.Late process := by
  cases d <;> simp [late, Late]

end Disposal

namespace Launch

/-- Published, before `_process.Start()`. -/
def Before (process : Nat) : Launch → Prop
  | .setStarting p | .start p => p = process
  | _ => False

/-- Started, before the lifetime job is stored. -/
def Window (process : Nat) : Launch → Prop
  | .createJob p | .storeJob p | .checkFailed p | .killFailed p => p = process
  | _ => False

/-- The disposal within a launch. -/
def disposal : Launch → Disposal
  | .discard disposal | .dispose disposal => disposal
  | _ => .finished

/-- Before the owned slot is taken. -/
def Vacant : Launch → Prop
  | .create | .publish _ => True
  | _ => False

end Launch

namespace ServerProcess

@[simp] theorem running_ended (p : ServerProcess) (exitCode : Int) :
    (p.ended exitCode).running = false := by
  unfold ended
  split
  · rfl
  · rename_i hnot
    rwa [Bool.not_eq_true] at hnot

@[simp] theorem disposed_ended (p : ServerProcess) (exitCode : Int) :
    (p.ended exitCode).disposed = p.disposed := by
  unfold ended
  split <;> rfl

@[simp] theorem disposed_kill (p : ServerProcess) : p.kill.disposed = p.disposed := by
  unfold kill
  split <;> simp

@[simp] theorem disposed_closeJob (p : ServerProcess) : p.closeJob.disposed = p.disposed := by
  unfold closeJob
  split <;> simp

/-- A process on which `HasExited` is not false is disposed of or not running. -/
theorem running_of_hasExited {p : ServerProcess} (h : p.hasExited ≠ some false) :
    p.disposed = true ∨ p.running = false := by
  unfold hasExited at h
  split at h
  · exact Or.inl ‹_›
  · split at h
    · rename_i hstatus
      exact Or.inr (by simp [running, hstatus])
    · exact absurd rfl h
    · rename_i hstatus
      exact Or.inr (by simp [running, hstatus])

end ServerProcess

/-! ## Processes and the threads that answer for them -/

/-- The owned slot, the processes, and where every thread stands. -/
structure ProcessView (K : Type) where
  owned : Option Nat
  processes : Nat → ServerProcess
  disposal : K → Disposal
  launch : K → Launch

/-- **A running process is owned or about to be ended, and has its job or a launch that stores
it.** -/
structure ProcessInv {K : Type} (v : ProcessView K) : Prop where
  running : ∀ p, (v.processes p).running = true → v.owned = some p ∨ ∃ k, (v.disposal k).Early p
  job : ∀ p, (v.processes p).running = true →
    (v.processes p).lifetimeJob = true ∨ ∃ k, (v.launch k).Window p
  late : ∀ k p, (v.disposal k).Late p → (v.processes p).running = false
  disposed : ∀ p, (v.processes p).disposed = true → (v.processes p).running = false
  before : ∀ k p, (v.launch k).Before p → v.owned = some p ∨ (v.processes p).disposed = true ∨
    ∃ j, (v.disposal j).Early p ∨ (v.disposal j).Late p

namespace ProcessView

variable {K : Type} (v : ProcessView K)

def withProcess (process : Nat) (p : ServerProcess) : ProcessView K :=
  { v with processes := Function.update v.processes process p }

def withOwned (owned : Option Nat) : ProcessView K := { v with owned }

@[simp] theorem withProcess_self (process : Nat) (p : ServerProcess) :
    (v.withProcess process p).processes process = p := Function.update_self ..

variable [DecidableEq K]

/-- A thread goes on. -/
def move (k : K) (disposal : Disposal) (launch : Launch) : ProcessView K :=
  { v with
    disposal := Function.update v.disposal k disposal
    launch := Function.update v.launch k launch }

@[simp] theorem move_disposal_self (k : K) (disposal : Disposal) (launch : Launch) :
    (v.move k disposal launch).disposal k = disposal := Function.update_self ..

@[simp] theorem move_launch_self (k : K) (disposal : Disposal) (launch : Launch) :
    (v.move k disposal launch).launch k = launch := Function.update_self ..

theorem move_disposal_of_ne {j k : K} {disposal : Disposal} {launch : Launch} (h : j ≠ k) :
    (v.move k disposal launch).disposal j = v.disposal j := Function.update_of_ne h _ _

end ProcessView

namespace ProcessInv

variable {K : Type} {v : ProcessView K}

/-- A process that does not run changes in what only a running one is held to. -/
theorem withProcess (h : ProcessInv v) {process : Nat} {p : ServerProcess}
    (hrunning : p.running = false)
    (hdisposed : (v.processes process).disposed = true → p.disposed = true) :
    ProcessInv (v.withProcess process p) := by
  have hother : ∀ q, q ≠ process → (v.withProcess process p).processes q = v.processes q :=
    fun q hq => Function.update_of_ne hq _ _
  have hself : (v.withProcess process p).processes process = p := Function.update_self ..
  constructor
  · intro q hq
    by_cases hqp : q = process
    · rw [hqp, hself, hrunning] at hq
      cases hq
    · rw [hother q hqp] at hq
      exact h.running q hq
  · intro q hq
    by_cases hqp : q = process
    · rw [hqp, hself, hrunning] at hq
      cases hq
    · rw [hother q hqp] at hq ⊢
      exact h.job q hq
  · intro k q hlate
    by_cases hqp : q = process
    · rw [hqp, hself, hrunning]
    · rw [hother q hqp]
      exact h.late k q hlate
  · intro q hq
    by_cases hqp : q = process
    · rw [hqp, hself, hrunning]
    · rw [hother q hqp] at hq ⊢
      exact h.disposed q hq
  · intro k q hbefore
    by_cases hqp : q = process
    · rw [hqp] at hbefore ⊢
      rw [hself]
      exact (h.before k process hbefore).imp_right fun hor => hor.imp_left hdisposed
    · rw [hother q hqp]
      exact h.before k q hbefore

/-- The job is stored. -/
theorem storeJob (h : ProcessInv v) (process : Nat) :
    ProcessInv (v.withProcess process { v.processes process with lifetimeJob := true }) := by
  have hsame : ∀ q, ((v.withProcess process
      { v.processes process with lifetimeJob := true }).processes q).running =
        (v.processes q).running ∧
      ((v.withProcess process { v.processes process with lifetimeJob := true }).processes
        q).disposed
        = (v.processes q).disposed := by
    intro q
    unfold ProcessView.withProcess
    by_cases hq : q = process
    · rw [hq]
      simp [ServerProcess.running]
    · simp [Function.update_of_ne hq]
  constructor
  · intro q hq
    rw [(hsame q).1] at hq
    exact h.running q hq
  · intro q hq
    rw [(hsame q).1] at hq
    by_cases hqp : q = process
    · rw [hqp]
      exact Or.inl (by simp [ProcessView.withProcess])
    · rw [show (v.withProcess process { v.processes process with lifetimeJob := true }).processes
        q =
        v.processes q from Function.update_of_ne hqp _ _]
      exact h.job q hq
  · intro k q hlate
    rw [(hsame q).1]
    exact h.late k q hlate
  · intro q hq
    rw [(hsame q).2] at hq
    rw [(hsame q).1]
    exact h.disposed q hq
  · intro k q hbefore
    rw [(hsame q).2]
    exact h.before k q hbefore

/-- The start of a process that a thread is about to watch over. -/
theorem start (h : ProcessInv v) {process : Nat}
    (hdisposed : (v.processes process).disposed = false)
    (howner : v.owned = some process ∨ ∃ k, (v.disposal k).Early process)
    (hwindow : ∃ k, (v.launch k).Window process) (hlate : ∀ k, ¬ (v.disposal k).Late process) :
    ProcessInv (v.withProcess process
      { v.processes process with status := .running }) := by
  have hother : ∀ q, q ≠ process → (v.withProcess process
      { v.processes process with status := .running }).processes q = v.processes q :=
    fun q hq => Function.update_of_ne hq _ _
  have hself : (v.withProcess process
      { v.processes process with status := .running }).processes process =
        { v.processes process with status := .running } := Function.update_self ..
  constructor
  · intro q hq
    by_cases hqp : q = process
    · rw [hqp]
      exact howner
    · rw [hother q hqp] at hq
      exact h.running q hq
  · intro q hq
    by_cases hqp : q = process
    · rw [hqp]
      exact Or.inr hwindow
    · rw [hother q hqp] at hq ⊢
      exact h.job q hq
  · intro k q hl
    by_cases hqp : q = process
    · rw [hqp] at hl
      exact absurd hl (hlate k)
    · rw [hother q hqp]
      exact h.late k q hl
  · intro q hq
    by_cases hqp : q = process
    · rw [hqp, hself] at hq
      rw [show (v.processes process).disposed = true from hq] at hdisposed
      cases hdisposed
    · rw [hother q hqp] at hq ⊢
      exact h.disposed q hq
  · intro k q hbefore
    by_cases hqp : q = process
    · rw [hqp] at hbefore ⊢
      rw [hself]
      exact h.before k process hbefore
    · rw [hother q hqp]
      exact h.before k q hbefore

/-- The free slot is taken. -/
theorem own (h : ProcessInv v) (hfree : v.owned = none) (process : Nat) :
    ProcessInv (v.withOwned (some process)) := by
  have hnone : ∀ p, v.owned ≠ some p := fun p hp => by
    rw [hfree] at hp
    cases hp
  constructor
  · exact fun p hp => Or.inr ((h.running p hp).resolve_left (hnone p))
  · exact h.job
  · exact h.late
  · exact h.disposed
  · exact fun k p hp => Or.inr ((h.before k p hp).resolve_left (hnone p))

/-- The slot is cleared by a thread that disposes of what was in it. -/
theorem release (h : ProcessInv v)
    (hheld : ∀ p, v.owned = some p → ∃ k, (v.disposal k).Early p) :
    ProcessInv (v.withOwned none) := by
  constructor
  · exact fun p hp => Or.inr ((h.running p hp).elim (hheld p) id)
  · exact h.job
  · exact h.late
  · exact h.disposed
  · intro k p hp
    rcases h.before k p hp with howned | hor
    · obtain ⟨j, hj⟩ := hheld p howned
      exact Or.inr (Or.inr ⟨j, Or.inl hj⟩)
    · exact Or.inr hor

variable [DecidableEq K]

/-- A thread goes on without losing a process. -/
theorem move (h : ProcessInv v) {k : K} {disposal : Disposal} {launch : Launch}
    (hearly : ∀ p, (v.disposal k).Early p → disposal.Early p ∨
      ((v.processes p).running = false ∧ disposal.Late p))
    (hlate : ∀ p, disposal.Late p → (v.processes p).running = false)
    (hdisposed : ∀ p, (v.disposal k).Late p → disposal.Late p ∨ (v.processes p).disposed = true)
    (hwindow : ∀ p, (v.launch k).Window p → (v.processes p).running = true →
      launch.Window p ∨ (v.processes p).lifetimeJob = true)
    (hbefore : ∀ p, launch.Before p → (v.launch k).Before p ∨ v.owned = some p) :
    ProcessInv (v.move k disposal launch) := by
  have hd : ∀ j, j ≠ k → (v.move k disposal launch).disposal j = v.disposal j :=
    fun j hj => Function.update_of_ne hj _ _
  have hl : ∀ j, j ≠ k → (v.move k disposal launch).launch j = v.launch j :=
    fun j hj => Function.update_of_ne hj _ _
  have hdself : (v.move k disposal launch).disposal k = disposal := Function.update_self ..
  have hlself : (v.move k disposal launch).launch k = launch := Function.update_self ..
  have hearly' : ∀ p, disposal.Early p → ((v.move k disposal launch).disposal k).Early p :=
    fun p hp => by rw [hdself]; exact hp
  have hlate' : ∀ p, disposal.Late p → ((v.move k disposal launch).disposal k).Late p :=
    fun p hp => by rw [hdself]; exact hp
  constructor
  · intro p hp
    refine (h.running p hp).imp_right ?_
    rintro ⟨j, hj⟩
    by_cases hjk : j = k
    · rcases hearly p (hjk ▸ hj) with hafter | ⟨hnot, -⟩
      · exact ⟨k, hearly' p hafter⟩
      · rw [show (v.processes p).running = true from hp] at hnot
        cases hnot
    · exact ⟨j, (hd j hjk).symm ▸ hj⟩
  · intro p hp
    rcases h.job p hp with hjob | ⟨j, hj⟩
    · exact Or.inl hjob
    · by_cases hjk : j = k
      · rcases hwindow p (hjk ▸ hj) hp with hafter | hjob
        · exact Or.inr ⟨k, by rw [hlself]; exact hafter⟩
        · exact Or.inl hjob
      · exact Or.inr ⟨j, (hl j hjk).symm ▸ hj⟩
  · intro j p hp
    by_cases hjk : j = k
    · rw [hjk, hdself] at hp
      exact hlate p hp
    · rw [hd j hjk] at hp
      exact h.late j p hp
  · exact h.disposed
  · intro j p hp
    have hold : (∃ i, (v.launch i).Before p) ∨ v.owned = some p := by
      by_cases hjk : j = k
      · rw [hjk, hlself] at hp
        exact (hbefore p hp).imp_left fun hb => ⟨k, hb⟩
      · rw [hl j hjk] at hp
        exact Or.inl ⟨j, hp⟩
    rcases hold with ⟨i, hi⟩ | howned
    · rcases h.before i p hi with howned | hgone | ⟨m, hm⟩
      · exact Or.inl howned
      · exact Or.inr (Or.inl hgone)
      · by_cases hmk : m = k
        · subst hmk
          rcases hm with hm | hm
          · rcases hearly p hm with hafter | ⟨-, hafter⟩
            · exact Or.inr (Or.inr ⟨m, Or.inl (hearly' p hafter)⟩)
            · exact Or.inr (Or.inr ⟨m, Or.inr (hlate' p hafter)⟩)
          · rcases hdisposed p hm with hafter | hgone
            · exact Or.inr (Or.inr ⟨m, Or.inr (hlate' p hafter)⟩)
            · exact Or.inr (Or.inl hgone)
        · exact Or.inr (Or.inr ⟨m, (hd m hmk).symm ▸ hm⟩)
    · exact Or.inl howned

/-- A thread whose disposal is over goes on with its launch. -/
theorem advance (h : ProcessInv v) {k : K} {launch : Launch} (hd : v.disposal k = .finished)
    (hwindow : ∀ p, (v.launch k).Window p → (v.processes p).running = true →
      launch.Window p ∨ (v.processes p).lifetimeJob = true)
    (hbefore : ∀ p, launch.Before p → (v.launch k).Before p ∨ v.owned = some p) :
    ProcessInv (v.move k .finished launch) := by
  refine h.move ?_ (fun _ hp => hp.elim) ?_ hwindow hbefore
  · intro p hp
    rw [hd] at hp
    exact hp.elim
  · intro p hp
    rw [hd] at hp
    exact hp.elim

end ProcessInv

/-! ## The view of a state -/

namespace ManagerPc

def disposal : ManagerPc → Disposal
  | .dispose _ disposal => disposal
  | .launch pc => pc.disposal
  | _ => .finished

def launchPc : ManagerPc → Launch
  | .launch pc => pc
  | _ => .returned false

end ManagerPc

namespace MonitorPc

def disposal : MonitorPc → Disposal
  | .dispose disposal _ => disposal
  | .launch pc => pc.disposal
  | _ => .finished

def launchPc : MonitorPc → Launch
  | .launch pc => pc
  | _ => .returned false

/-- The monitor has detached the exited process and has not yet published another one. -/
def Vacant : MonitorPc → Prop
  | .dispose _ _ | .decide _ => True
  | .launch pc => pc.Vacant
  | _ => False

end MonitorPc

namespace ServerManager

/-- The calling thread is `none`, monitor number `i` is `some i`. -/
def view (s : ServerManager) : ProcessView (Option Nat) where
  owned := s.ownedProcess
  processes := s.processes
  disposal k := k.elim s.control.disposal fun i => s.monitors[i]?.elim .finished (·.pc.disposal)
  launch k := k.elim s.control.launchPc fun i =>
    s.monitors[i]?.elim (.returned false) (·.pc.launchPc)

variable {s s' t : ServerManager}

theorem view_withControl (s : ServerManager) (control : ManagerPc) :
    (s.withControl control).view = s.view.move none control.disposal control.launchPc := by
  have hdisposal : (s.withControl control).view.disposal =
      Function.update s.view.disposal none control.disposal := by
    funext k
    cases k <;> rfl
  have hlaunch : (s.withControl control).view.launch =
      Function.update s.view.launch none control.launchPc := by
    funext k
    cases k <;> rfl
  unfold ProcessView.move
  rw [← hdisposal, ← hlaunch]
  rfl

theorem view_withMonitor {i : Nat} {monitor : Monitor} (h : s.monitors[i]? = some monitor)
    (monitor' : Monitor) : (s.withMonitor i monitor').view =
      s.view.move (some i) monitor'.pc.disposal monitor'.pc.launchPc := by
  have hself : (s.monitors.modify i fun _ => monitor')[i]? = some monitor' := by
    rw [List.getElem?_modify_eq, h]
    rfl
  have hother : ∀ j, i ≠ j → (s.monitors.modify i fun _ => monitor')[j]? = s.monitors[j]? :=
    fun j hj => List.getElem?_modify_ne _ _ hj
  have hdisposal : (s.withMonitor i monitor').view.disposal =
      Function.update s.view.disposal (some i) monitor'.pc.disposal := by
    funext k
    cases k with
    | none => rfl
    | some j =>
      by_cases hij : i = j
      · subst hij
        simp only [view, withMonitor, Option.elim_some, hself, Function.update_self]
      · rw [Function.update_of_ne (by simpa using Ne.symm hij)]
        simp only [view, withMonitor, Option.elim_some, hother j hij]
  have hlaunch : (s.withMonitor i monitor').view.launch =
      Function.update s.view.launch (some i) monitor'.pc.launchPc := by
    funext k
    cases k with
    | none => rfl
    | some j =>
      by_cases hij : i = j
      · subst hij
        simp only [view, withMonitor, Option.elim_some, hself, Function.update_self]
      · rw [Function.update_of_ne (by simpa using Ne.symm hij)]
        simp only [view, withMonitor, Option.elim_some, hother j hij]
  unfold ProcessView.move
  rw [← hdisposal, ← hlaunch]
  rfl

@[simp] theorem view_setState (s : ServerManager) (state : ServerManagerState)
    (expectedGeneration : Option Nat) : (s.setState state expectedGeneration).1.view = s.view := by
  unfold setState
  split <;> rfl

/-! ## Where the steps may not fall -/

/-- Thread `k` starts no process between a disposal's look at its job and its end, and disposes of
no running process between its start and the storing of its job. -/
def ApartAt (s : ServerManager) (k : Option Nat) : Prop :=
  (∀ p, s.view.launch k = .start p → ∀ j, ¬ (s.view.disposal j).Late p) ∧
    ∀ p, s.view.disposal k = .closeJob p → ∀ j, (s.view.launch j).Window p →
      (s.processes p).running = false

def Apart (s : ServerManager) : ServerAction → Prop
  | .control _ => s.ApartAt none
  | .monitor i _ => s.ApartAt (some i)
  | _ => True

/-! ## The steps of a thread -/

/-- A thread that answers for nothing goes on. -/
theorem quiet_move {k : Option Nat} {d : Disposal} {l : Launch} (h : ProcessInv s.view)
    (hd : s.view.disposal k = .finished) (hl : ∀ p, ¬ (s.view.launch k).Window p)
    (hd' : ∀ p, ¬ d.Late p) (hl' : ∀ p, ¬ l.Before p) : ProcessInv (s.view.move k d l) := by
  refine h.move ?_ ?_ ?_ ?_ ?_
  · intro p hp
    rw [hd] at hp
    exact hp.elim
  · exact fun p hp => absurd hp (hd' p)
  · intro p hp
    rw [hd] at hp
    exact hp.elim
  · exact fun p hp => absurd hp (hl p)
  · exact fun p hp => absurd hp (hl' p)

theorem of_early (killIfRunning : Bool) (process : Nat) :
    (Disposal.of killIfRunning (some process)).Early process := by
  cases killIfRunning <;> rfl

theorem of_not_late (killIfRunning : Bool) (detached : Option Nat) (p : Nat) :
    ¬ (Disposal.of killIfRunning detached).Late p := by
  cases detached <;> cases killIfRunning <;> exact id

theorem detachOwnedProcess_cases {expectedProcess expectedGeneration detached : Option Nat}
    (h : s.detachOwnedProcess expectedProcess expectedGeneration = (s', detached)) :
    (s' = s ∧ detached = none) ∨ (s.current expectedGeneration = true ∧
      s' = { s with ownedProcess := none } ∧ detached = s.ownedProcess) := by
  unfold detachOwnedProcess at h
  split at h
  · cases h
    exact Or.inl ⟨rfl, rfl⟩
  · rename_i hcurrent
    split at h
    · cases h
      exact Or.inl ⟨rfl, rfl⟩
    · cases h
      exact Or.inr ⟨by simpa using hcurrent, rfl, rfl⟩

/-- `DetachOwnedProcess`, and the thread goes on to dispose of what it took. -/
theorem detach_move {k expectedProcess expectedGeneration detached : Option Nat} {l : Launch}
    (h : ProcessInv s.view) (hd : s.view.disposal k = .finished)
    (hl : ∀ p, ¬ (s.view.launch k).Window p) (hl' : ∀ p, ¬ l.Before p) (killIfRunning : Bool)
    (hdetach : s.detachOwnedProcess expectedProcess expectedGeneration = (s', detached)) :
    ProcessInv (s'.view.move k (.of killIfRunning detached) l) := by
  have hmove := quiet_move h hd hl (of_not_late killIfRunning detached) hl'
  rcases detachOwnedProcess_cases hdetach with ⟨rfl, rfl⟩ | ⟨-, rfl, rfl⟩
  · exact hmove
  · refine hmove.release fun p hp => ⟨k, ?_⟩
    have howned : s.ownedProcess = some p := hp
    rw [howned, ProcessView.move_disposal_self]
    exact of_early killIfRunning p

theorem running_kill (h : ProcessInv s.view) (p : Nat) : (s.processes p).kill.running = false := by
  unfold ServerProcess.kill
  split
  · exact h.disposed p ‹_›
  · exact ServerProcess.running_ended _ _

theorem disposal_move {k : Option Nat} {d d' : Disposal} {l' : Launch} (h : ProcessInv s.view)
    (hstep : s.disposalStep d = some (s', d')) (hd : s.view.disposal k = d)
    (hl : ∀ p, ¬ (s.view.launch k).Window p) (hl' : ∀ p, ¬ l'.Before p) (hapart : s.ApartAt k) :
    ProcessInv (s'.view.move k d' l') := by
  have hclose := hapart.2
  rw [hd] at hclose
  cases d with
  | check p =>
    have hcase : s' = s ∧ d'.Early p ∧ ∀ q, ¬ d'.Late q := by
      unfold disposalStep at hstep
      dsimp only at hstep
      split at hstep <;> cases hstep <;> exact ⟨rfl, rfl, fun _ => id⟩
    obtain ⟨rfl, hearly, hlate⟩ := hcase
    refine h.move ?_ ?_ ?_ ?_ ?_
    · intro q hq
      rw [hd] at hq
      have hpq : p = q := hq
      exact Or.inl (hpq ▸ hearly)
    · exact fun q hq => absurd hq (hlate q)
    · intro q hq
      rw [hd] at hq
      exact hq.elim
    · exact fun q hq => absurd hq (hl q)
    · exact fun q hq => absurd hq (hl' q)
  | kill p =>
    cases hstep
    refine (h.withProcess (running_kill h p) fun hp => by
      rw [ServerProcess.disposed_kill]; exact hp).move ?_ ?_ ?_ ?_ ?_
    · intro q hq
      have hpq : Disposal.Early q (s.view.disposal k) := hq
      rw [hd] at hpq
      exact Or.inl hpq
    · exact fun q hq => hq.elim
    · intro q hq
      have hpq : Disposal.Late q (s.view.disposal k) := hq
      rw [hd] at hpq
      exact hpq.elim
    · exact fun q hq => absurd hq (hl q)
    · exact fun q hq => absurd hq (hl' q)
  | closeJob p =>
    cases hstep
    have hended : (s.processes p).closeJob.running = false := by
      unfold ServerProcess.closeJob
      split
      · simp
      · rename_i hjob
        by_contra hrunning
        rw [Bool.not_eq_false] at hrunning
        rcases h.job p hrunning with hstored | ⟨j, hj⟩
        · exact hjob hstored
        · rw [hclose p rfl j hj] at hrunning
          cases hrunning
    refine (h.withProcess hended fun hp => by
      rw [ServerProcess.disposed_closeJob]; exact hp).move ?_ ?_ ?_ ?_ ?_
    · intro q hq
      have hpq : Disposal.Early q (s.view.disposal k) := hq
      rw [hd] at hpq
      have heq : p = q := hpq
      subst heq
      refine Or.inr ⟨?_, rfl⟩
      rw [ProcessView.withProcess_self]
      exact hended
    · intro q hq
      have heq : p = q := hq
      subst heq
      rw [ProcessView.withProcess_self]
      exact hended
    · intro q hq
      have hpq : Disposal.Late q (s.view.disposal k) := hq
      rw [hd] at hpq
      exact hpq.elim
    · exact fun q hq => absurd hq (hl q)
    · exact fun q hq => absurd hq (hl' q)
  | clearJob p =>
    cases hstep
    have hended : (s.processes p).running = false := h.late k p (by rw [hd]; rfl)
    refine (h.withProcess (p := { s.processes p with lifetimeJob := false }) hended id).move
      ?_ ?_ ?_ ?_ ?_
    · intro q hq
      have hpq : Disposal.Early q (s.view.disposal k) := hq
      rw [hd] at hpq
      exact hpq.elim
    · intro q hq
      have heq : p = q := hq
      subst heq
      rw [ProcessView.withProcess_self]
      exact hended
    · intro q hq
      have hpq : Disposal.Late q (s.view.disposal k) := hq
      rw [hd] at hpq
      exact Or.inl hpq
    · exact fun q hq => absurd hq (hl q)
    · exact fun q hq => absurd hq (hl' q)
  | disposeProcess p =>
    cases hstep
    have hended : (s.processes p).running = false := h.late k p (by rw [hd]; rfl)
    refine (h.withProcess (p := { s.processes p with disposed := true }) hended fun _ => rfl).move
      ?_ ?_ ?_ ?_ ?_
    · intro q hq
      have hpq : Disposal.Early q (s.view.disposal k) := hq
      rw [hd] at hpq
      exact hpq.elim
    · exact fun q hq => hq.elim
    · intro q hq
      have hpq : Disposal.Late q (s.view.disposal k) := hq
      rw [hd] at hpq
      have heq : p = q := hpq
      subst heq
      refine Or.inr ?_
      rw [ProcessView.withProcess_self]
    · exact fun q hq => absurd hq (hl q)
    · exact fun q hq => absurd hq (hl' q)
  | finished => cases hstep

/-! ### The steps of a launch -/

section LaunchStep

variable {k expectedGeneration : Option Nat} {answer : ServerAnswer} {l' : Launch}

/-- What a step of a launch at `l` keeps. -/
def LaunchKeeps (s : ServerManager) (k expectedGeneration : Option Nat) (answer : ServerAnswer)
    (l : Launch) : Prop :=
  ∀ s' l', s.launchStep expectedGeneration answer l = some (s', l') →
    ProcessInv (s'.view.move k l'.disposal l')

theorem launch_create (h : ProcessInv s.view) (hl : s.view.launch k = .create)
    (hd : s.view.disposal k = .finished) : s.LaunchKeeps k expectedGeneration answer .create := by
  intro s' l' hstep
  have hquiet : ∀ {after : Launch}, (∀ p, ¬ after.Before p) →
      ProcessInv (s.view.move k .finished after) :=
    fun hafter => quiet_move h hd (by rw [hl]; exact fun _ => id) (fun _ => id) hafter
  unfold launchStep at hstep
  dsimp only at hstep
  split at hstep <;> cases hstep
  · exact hquiet fun _ => id
  · exact hquiet fun _ => id

/-- A launch takes the free slot, or finds that its generation has ended. -/
theorem launch_publish {p : Nat} (h : ProcessInv s.view) (hl : s.view.launch k = .publish p)
    (hd : s.view.disposal k = .finished)
    (hfree : s.current expectedGeneration = true → s.ownedProcess = none) :
    s.LaunchKeeps k expectedGeneration answer (.publish p) := by
  intro s' l' hstep
  unfold launchStep at hstep
  dsimp only at hstep
  split at hstep
  · rename_i hcurrent
    cases hstep
    refine (h.own (hfree hcurrent) p).advance hd ?_ ?_
    · intro q hq
      have hw : Launch.Window q (s.view.launch k) := hq
      rw [hl] at hw
      exact hw.elim
    · intro q hq
      have heq : p = q := hq
      exact Or.inr (congrArg some heq)
  · cases hstep
    exact quiet_move h hd (by rw [hl]; exact fun _ => id) (fun _ => id) fun _ => id

theorem launch_setStarting {p : Nat} (h : ProcessInv s.view)
    (hl : s.view.launch k = .setStarting p) (hd : s.view.disposal k = .finished) :
    s.LaunchKeeps k expectedGeneration answer (.setStarting p) := by
  intro s' l' hstep
  unfold launchStep setState at hstep
  dsimp only at hstep
  split at hstep <;> cases hstep
  · refine h.advance hd ?_ ?_
    · intro q hq
      rw [hl] at hq
      exact hq.elim
    · intro q hq
      rw [hl]
      exact Or.inl hq
  · exact quiet_move h hd (by rw [hl]; exact fun _ => id) (fun _ => id) fun _ => id

/-- `_process.Start()`: what runs now is owned or about to be ended, since no thread is past its
look at the job. -/
theorem launch_start {p : Nat} (h : ProcessInv s.view) (hl : s.view.launch k = .start p)
    (hd : s.view.disposal k = .finished) (hlate : ∀ j, ¬ (s.view.disposal j).Late p) :
    s.LaunchKeeps k expectedGeneration answer (.start p) := by
  intro s' l' hstep
  have hquiet : ∀ {after : Launch}, (∀ q, ¬ after.Before q) →
      ProcessInv (s.view.move k .finished after) :=
    fun hafter => quiet_move h hd (by rw [hl]; exact fun _ => id) (fun _ => id) hafter
  unfold launchStep at hstep
  dsimp only at hstep
  split at hstep
  · cases hstep
    exact hquiet fun _ => id
  · rename_i hready
    cases hstep
    have hdisposed : (s.processes p).disposed = false := by
      rw [Bool.or_eq_true, not_or] at hready
      simpa using hready.2
    have hmoved : ProcessInv (s.view.move k .finished (.createJob p)) := hquiet fun _ => id
    have hview : ∀ j, ((s.view.move k .finished (.createJob p)).disposal j).Late p →
        (s.view.disposal j).Late p := by
      intro j hj
      by_cases hjk : j = k
      · rw [hjk, ProcessView.move_disposal_self] at hj
        exact hj.elim
      · rwa [ProcessView.move_disposal_of_ne _ hjk] at hj
    refine hmoved.start hdisposed ?_ ⟨k, ?_⟩ fun j hj => hlate j (hview j hj)
    · rcases h.before k p (by rw [hl]; rfl) with howned | hgone | ⟨j, hj | hj⟩
      · exact Or.inl howned
      · rw [show (s.processes p).disposed = true from hgone] at hdisposed
        cases hdisposed
      · have hjk : j ≠ k := by
          rintro rfl
          rw [hd] at hj
          exact hj
        exact Or.inr ⟨j, by rwa [ProcessView.move_disposal_of_ne _ hjk]⟩
      · exact absurd hj (hlate j)
    · rw [ProcessView.move_launch_self]
      rfl

theorem launch_createJob {p : Nat} (h : ProcessInv s.view) (hl : s.view.launch k = .createJob p)
    (hd : s.view.disposal k = .finished) :
    s.LaunchKeeps k expectedGeneration answer (.createJob p) := by
  intro s' l' hstep
  have hkeep : ∀ {after : Launch}, (∀ q, (Launch.createJob p).Window q → after.Window q) →
      (∀ q, ¬ after.Before q) → ProcessInv (s.view.move k .finished after) := by
    intro after hwindow hbefore
    refine h.advance hd ?_ fun q hq => absurd hq (hbefore q)
    intro q hq _
    rw [hl] at hq
    exact Or.inl (hwindow q hq)
  unfold launchStep at hstep
  dsimp only at hstep
  split at hstep <;> cases hstep <;> exact hkeep (fun _ => id) fun _ => id

/-- The process leaves the window with its job stored. -/
theorem launch_storeJob {p : Nat} (h : ProcessInv s.view) (hl : s.view.launch k = .storeJob p)
    (hd : s.view.disposal k = .finished) :
    s.LaunchKeeps k expectedGeneration answer (.storeJob p) := by
  intro s' l' hstep
  cases hstep
  refine (h.storeJob p).advance hd ?_ fun q hq => hq.elim
  intro q hq _
  have hw : Launch.Window q (s.view.launch k) := hq
  rw [hl] at hw
  have heq : p = q := hw
  subst heq
  exact Or.inr (by rw [ProcessView.withProcess_self])

/-- The process leaves the window because it has exited. -/
theorem launch_checkFailed {p : Nat} (h : ProcessInv s.view)
    (hl : s.view.launch k = .checkFailed p) (hd : s.view.disposal k = .finished) :
    s.LaunchKeeps k expectedGeneration answer (.checkFailed p) := by
  intro s' l' hstep
  unfold launchStep at hstep
  dsimp only at hstep
  split at hstep
  · cases hstep
    refine h.advance hd ?_ fun q hq => hq.elim
    intro q hq _
    rw [hl] at hq
    exact Or.inl hq
  · rename_i hexited
    cases hstep
    have hended : (s.processes p).running = false :=
      (ServerProcess.running_of_hasExited hexited).elim (h.disposed p) id
    refine h.advance hd ?_ fun q hq => hq.elim
    intro q hq hrunning
    rw [hl] at hq
    have heq : p = q := hq
    subst heq
    rw [show (s.processes p).running = true from hrunning] at hended
    cases hended

/-- The process leaves the window because it has been killed. -/
theorem launch_killFailed {p : Nat} (h : ProcessInv s.view)
    (hl : s.view.launch k = .killFailed p) (hd : s.view.disposal k = .finished) :
    s.LaunchKeeps k expectedGeneration answer (.killFailed p) := by
  intro s' l' hstep
  cases hstep
  have hended := running_kill h p
  refine (h.withProcess hended fun hp => by
    rw [ServerProcess.disposed_kill]; exact hp).advance hd ?_ fun q hq => hq.elim
  intro q hq hrunning
  have hw : Launch.Window q (s.view.launch k) := hq
  rw [hl] at hw
  have heq : p = q := hw
  subst heq
  rw [ProcessView.withProcess_self, hended] at hrunning
  cases hrunning

theorem launch_finishStart {p : Nat} (h : ProcessInv s.view)
    (hl : s.view.launch k = .finishStart p) (hd : s.view.disposal k = .finished) :
    s.LaunchKeeps k expectedGeneration answer (.finishStart p) := by
  intro s' l' hstep
  have hquiet : ∀ {after : Launch}, (∀ q, ¬ after.Before q) →
      ProcessInv (s.view.move k .finished after) :=
    fun hafter => quiet_move h hd (by rw [hl]; exact fun _ => id) (fun _ => id) hafter
  unfold launchStep at hstep
  dsimp only at hstep
  split at hstep <;> cases hstep
  · exact hquiet fun _ => id
  · exact hquiet fun _ => id

/-- The end of a launch that failed or was overtaken: the disposal steps, or is over. -/
theorem launch_disposing {d : Disposal} {l : Launch} {after : Disposal → Launch}
    (h : ProcessInv s.view) (hwindow : ∀ p, ¬ (s.view.launch k).Window p)
    (hd : s.view.disposal k = d) (hapart : s.ApartAt k) (hl : ∀ p, ¬ l.Before p)
    (hfinished : l.disposal = .finished) (hafter : ∀ d p, ¬ (after d).Before p)
    (hdisposal : ∀ d, (after d).disposal = d)
    (hstep : (if d = .finished then some (s, l)
      else (s.disposalStep d).map fun stepped => (stepped.1, after stepped.2)) = some (s', l')) :
    ProcessInv (s'.view.move k l'.disposal l') := by
  split at hstep
  · rename_i hd'
    cases hstep
    rw [hfinished]
    exact quiet_move h (hd.trans hd') hwindow (fun _ => id) hl
  · obtain ⟨⟨s'', d'⟩, hstep', heq⟩ := Option.map_eq_some_iff.mp hstep
    cases heq
    rw [hdisposal]
    exact disposal_move h hstep' hd hwindow (hafter d') hapart

theorem launch_move {l : Launch} (h : ProcessInv s.view)
    (hstep : s.launchStep expectedGeneration answer l = some (s', l'))
    (hl : s.view.launch k = l) (hd : s.view.disposal k = l.disposal)
    (hfree : l.Vacant → s.current expectedGeneration = true → s.ownedProcess = none)
    (hapart : s.ApartAt k) : ProcessInv (s'.view.move k l'.disposal l') := by
  cases l with
  | create => exact launch_create h hl hd s' l' hstep
  | publish p => exact launch_publish h hl hd (hfree trivial) s' l' hstep
  | setStarting p => exact launch_setStarting h hl hd s' l' hstep
  | unpublish p =>
    cases hstep
    exact detach_move h hd (by rw [hl]; exact fun _ => id) (fun _ => id) false rfl
  | start p => exact launch_start h hl hd (hapart.1 p hl) s' l' hstep
  | createJob p => exact launch_createJob h hl hd s' l' hstep
  | storeJob p => exact launch_storeJob h hl hd s' l' hstep
  | checkFailed p => exact launch_checkFailed h hl hd s' l' hstep
  | killFailed p => exact launch_killFailed h hl hd s' l' hstep
  | finishStart p => exact launch_finishStart h hl hd s' l' hstep
  | detach p =>
    cases hstep
    exact detach_move h hd (by rw [hl]; exact fun _ => id) (fun _ => id) true rfl
  | discard d =>
    exact launch_disposing h (by rw [hl]; exact fun _ => id) hd hapart (fun _ => id) rfl
      (fun _ _ => id) (fun _ => rfl) hstep
  | dispose d =>
    exact launch_disposing h (by rw [hl]; exact fun _ => id) hd hapart (fun _ => id) rfl
      (fun _ _ => id) (fun _ => rfl) hstep
  | setFaulted =>
    cases hstep
    rw [view_setState]
    exact quiet_move h hd (by rw [hl]; exact fun _ => id) (fun _ => id) fun _ => id
  | returned launched => cases hstep

end LaunchStep

/-! ## The fence -/

/-- What a step under the fence of a generation leaves alone; `before` and `after` say whether its
thread has vacated the owned slot. -/
structure StepFrame (s s' : ServerManager) (expectedGeneration : Option Nat) (before after : Prop) :
    Prop where
  control : s'.control = s.control
  cts : s'.cts = s.cts
  generation : s'.monitorGeneration = s.monitorGeneration
  monitors : s'.monitors = s.monitors
  fenced : s.current expectedGeneration = false →
    s'.state = s.state ∧ s'.ownedProcess = s.ownedProcess
  slot : (s'.ownedProcess = s.ownedProcess ∧ (after → before)) ∨ s'.ownedProcess = none ∨
    (s.current expectedGeneration = true ∧ before ∧ ¬ after)

/-- Only processes change. -/
theorem StepFrame.of_owned {g : Option Nat} {before after : Prop}
    (hcontrol : s'.control = s.control)
    (hcts : s'.cts = s.cts) (hgeneration : s'.monitorGeneration = s.monitorGeneration)
    (hmonitors : s'.monitors = s.monitors) (hstate : s'.state = s.state)
    (howned : s'.ownedProcess = s.ownedProcess) (hvacant : after → before) :
    StepFrame s s' g before after :=
  ⟨hcontrol, hcts, hgeneration, hmonitors, fun _ => ⟨hstate, howned⟩, Or.inl ⟨howned, hvacant⟩⟩

theorem disposalStep_frame {g : Option Nat} {d d' : Disposal} {before after : Prop}
    (h : s.disposalStep d = some (s', d')) (hvacant : after → before) :
    StepFrame s s' g before after := by
  cases d with
  | check p =>
    unfold disposalStep at h
    dsimp only at h
    split at h <;> cases h <;> exact .of_owned rfl rfl rfl rfl rfl rfl hvacant
  | kill p | closeJob p | clearJob p | disposeProcess p =>
    cases h
    exact .of_owned rfl rfl rfl rfl rfl rfl hvacant
  | finished => cases h

theorem detach_frame {expectedProcess g detached : Option Nat} {before after : Prop}
    (h : s.detachOwnedProcess expectedProcess g = (s', detached))
    (hvacant : detached = none → after → before) : StepFrame s s' g before after := by
  rcases detachOwnedProcess_cases h with ⟨rfl, hnone⟩ | ⟨hcurrent, rfl, -⟩
  · exact .of_owned rfl rfl rfl rfl rfl rfl (hvacant hnone)
  · refine ⟨rfl, rfl, rfl, rfl, fun hold => ?_, Or.inr (Or.inl rfl)⟩
    rw [hcurrent] at hold
    cases hold

theorem setState_frame {g : Option Nat} {before after : Prop} (state : ServerManagerState)
    (hvacant : after → before) : StepFrame s (s.setState state g).1 g before after := by
  unfold setState
  split
  · rename_i hcurrent
    refine ⟨rfl, rfl, rfl, rfl, fun hold => ?_, Or.inl ⟨rfl, hvacant⟩⟩
    rw [hcurrent] at hold
    cases hold
  · exact .of_owned rfl rfl rfl rfl rfl rfl hvacant

theorem launchStep_frame {g : Option Nat} {answer : ServerAnswer} {l l' : Launch}
    (h : s.launchStep g answer l = some (s', l')) : StepFrame s s' g l.Vacant l'.Vacant := by
  cases l with
  | create =>
    unfold launchStep at h
    dsimp only at h
    split at h <;> cases h <;> exact .of_owned rfl rfl rfl rfl rfl rfl fun _ => trivial
  | publish p =>
    unfold launchStep at h
    dsimp only at h
    split at h
    · rename_i hcurrent
      cases h
      refine ⟨rfl, rfl, rfl, rfl, fun hold => ?_, Or.inr (Or.inr ⟨hcurrent, trivial, id⟩)⟩
      rw [hcurrent] at hold
      cases hold
    · cases h
      exact .of_owned rfl rfl rfl rfl rfl rfl fun _ => trivial
  | setStarting p =>
    have hnot : ¬ l'.Vacant := by
      unfold launchStep setState at h
      dsimp only at h
      split at h <;> cases h <;> exact id
    have hs' : s' = (s.setState .starting g).1 := (Prod.mk.inj (Option.some.inj h)).1.symm
    subst hs'
    exact setState_frame .starting fun hv => absurd hv hnot
  | unpublish p =>
    cases h
    exact detach_frame rfl fun _ hv => hv.elim
  | start p | createJob p | finishStart p =>
    unfold launchStep at h
    dsimp only at h
    split at h <;> cases h <;> exact .of_owned rfl rfl rfl rfl rfl rfl fun hv => hv.elim
  | checkFailed p =>
    unfold launchStep at h
    dsimp only at h
    split at h <;> cases h <;> exact .of_owned rfl rfl rfl rfl rfl rfl fun hv => hv.elim
  | storeJob p | killFailed p =>
    cases h
    exact .of_owned rfl rfl rfl rfl rfl rfl fun hv => hv.elim
  | detach p =>
    cases h
    exact detach_frame rfl fun _ hv => hv.elim
  | discard d | dispose d =>
    unfold launchStep at h
    dsimp only at h
    split at h
    · cases h
      exact .of_owned rfl rfl rfl rfl rfl rfl fun hv => hv.elim
    · obtain ⟨⟨s'', d'⟩, hdisposal, heq⟩ := Option.map_eq_some_iff.mp h
      cases heq
      exact disposalStep_frame hdisposal fun hv => hv.elim
  | setFaulted =>
    have hs' : s' = (s.setState .faulted g).1 := (Prod.mk.inj (Option.some.inj h)).1.symm
    have hl' : l' = .returned false := (Prod.mk.inj (Option.some.inj h)).2.symm
    subst hs'
    subst hl'
    exact setState_frame .faulted fun hv => hv.elim
  | returned launched => cases h

theorem monitorStep_launch {m m' : Monitor} {answer : ServerAnswer} {l : Launch}
    (hpc : m.pc = .launch l) (h : s.monitorStep m answer = some (s', m')) :
    (∃ launched, l = .returned launched ∧ s' = s ∧
      m' = { m with pc := if launched then .check else .ended }) ∨
    ∃ l', s.launchStep (some m.generation) answer l = some (s', l') ∧
      m' = { m with pc := .launch l' } := by
  obtain ⟨generation, cancelled, restartCount, pc⟩ := m
  obtain rfl : pc = .launch l := hpc
  cases l with
  | returned launched =>
    cases h
    exact Or.inl ⟨launched, rfl, rfl, rfl⟩
  | _ =>
    simp only [monitorStep, Option.map_eq_some_iff] at h
    obtain ⟨⟨s'', l'⟩, hlaunch, heq⟩ := h
    cases heq
    exact Or.inr ⟨l', hlaunch, rfl⟩

/-- The step of a monitor, seen from the other threads. -/
theorem monitorStep_frame {m m' : Monitor} {answer : ServerAnswer}
    (h : s.monitorStep m answer = some (s', m')) :
    m'.generation = m.generation ∧ StepFrame s s' (some m.generation) m.pc.Vacant m'.pc.Vacant := by
  obtain ⟨generation, cancelled, restartCount, pc⟩ := m
  cases pc with
  | check =>
    cases h
    refine ⟨rfl, .of_owned rfl rfl rfl rfl rfl rfl ?_⟩
    cases cancelled <;> exact id
  | delay =>
    simp only [monitorStep] at h
    split at h
    · cases h
      exact ⟨rfl, .of_owned rfl rfl rfl rfl rfl rfl id⟩
    · split at h <;> cases h
      exact ⟨rfl, .of_owned rfl rfl rfl rfl rfl rfl id⟩
  | getProcess =>
    simp only [monitorStep, Option.some.injEq, Prod.mk.injEq] at h
    obtain ⟨rfl, rfl⟩ := h
    refine ⟨rfl, .of_owned rfl rfl rfl rfl rfl rfl ?_⟩
    dsimp only
    split
    · cases s.ownedProcess <;> exact id
    · exact id
  | checkExited p =>
    simp only [monitorStep] at h
    split at h <;> cases h <;> exact ⟨rfl, .of_owned rfl rfl rfl rfl rfl rfl id⟩
  | getState =>
    simp only [monitorStep, Option.some.injEq, Prod.mk.injEq] at h
    obtain ⟨rfl, rfl⟩ := h
    refine ⟨rfl, .of_owned rfl rfl rfl rfl rfl rfl ?_⟩
    dsimp only
    split <;> exact id
  | setRunning =>
    simp only [monitorStep, Option.some.injEq, Prod.mk.injEq] at h
    obtain ⟨rfl, rfl⟩ := h
    exact ⟨rfl, setState_frame .running id⟩
  | readExitCode p =>
    cases h
    exact ⟨rfl, .of_owned rfl rfl rfl rfl rfl rfl id⟩
  | detach p exitCode =>
    rcases hdetach : s.detachOwnedProcess (some p) (some generation) with ⟨s'', detached⟩
    simp only [monitorStep, hdetach, Option.some.injEq, Prod.mk.injEq] at h
    obtain ⟨rfl, rfl⟩ := h
    refine ⟨rfl, detach_frame hdetach fun hnone hv => ?_⟩
    rw [hnone] at hv
    exact hv
  | dispose d exitCode =>
    simp only [monitorStep] at h
    split at h
    · cases h
      exact ⟨rfl, .of_owned rfl rfl rfl rfl rfl rfl id⟩
    · obtain ⟨⟨s'', d'⟩, hdisposal, heq⟩ := Option.map_eq_some_iff.mp h
      cases heq
      exact ⟨rfl, disposalStep_frame hdisposal id⟩
  | decide exitCode =>
    simp only [monitorStep] at h
    split at h
    · cases h
      exact ⟨rfl, .of_owned rfl rfl rfl rfl rfl rfl fun _ => trivial⟩
    · split at h
      · cases h
        exact ⟨rfl, .of_owned rfl rfl rfl rfl rfl rfl fun _ => trivial⟩
      · split at h <;> cases h <;>
          exact ⟨rfl, .of_owned rfl rfl rfl rfl rfl rfl fun _ => trivial⟩
  | launch l =>
    rcases monitorStep_launch rfl h with ⟨launched, -, rfl, rfl⟩ | ⟨l', hlaunch, rfl⟩
    · refine ⟨rfl, .of_owned rfl rfl rfl rfl rfl rfl ?_⟩
      cases launched <;> exact fun hv => hv.elim
    · exact ⟨rfl, launchStep_frame hlaunch⟩
  | setFinal state =>
    simp only [monitorStep, Option.some.injEq, Prod.mk.injEq] at h
    obtain ⟨rfl, rfl⟩ := h
    exact ⟨rfl, setState_frame state id⟩
  | ended => cases h

/-- No monitor of the current generation exists. -/
def Retired (s : ServerManager) : Prop :=
  match s.control with
  | .idle => s.cts = none
  | .increment _ _ => False
  | _ => True

/-- The calling thread has cleared the owned slot and has not published another process. -/
def Vacant (s : ServerManager) : Prop :=
  match s.control with
  | .idle => s.cts = none
  | .dispose _ _ | .setStopped => True
  | .launch pc => pc.Vacant
  | _ => False

def Launching (s : ServerManager) : Prop :=
  match s.control with
  | .launch _ | .runMonitor => True
  | _ => False

/-- **Generations and the owned slot.** -/
structure FenceInv (s : ServerManager) : Prop where
  le : ∀ (i : Nat) (m : Monitor), s.monitors[i]? = some m → m.generation ≤ s.monitorGeneration
  unique : ∀ (i j : Nat) (a b : Monitor), s.monitors[i]? = some a → s.monitors[j]? = some b →
    a.generation = b.generation → i = j
  retired : s.Retired → ∀ (i : Nat) (m : Monitor), s.monitors[i]? = some m →
    m.generation < s.monitorGeneration
  source : s.Launching → s.cts.isSome = true
  control : s.Vacant → s.ownedProcess = none
  monitor : ∀ (i : Nat) (m : Monitor), s.monitors[i]? = some m →
    m.generation = s.monitorGeneration → m.pc.Vacant → s.ownedProcess = none

theorem Vacant.retired (h : s.Vacant) : s.Retired := by
  unfold Vacant at h
  unfold Retired
  split at h
  · rename_i hcontrol
    rw [hcontrol]
    exact h
  · rename_i hcontrol
    rw [hcontrol]
    trivial
  · rename_i hcontrol
    rw [hcontrol]
    trivial
  · rename_i hcontrol
    rw [hcontrol]
    trivial
  · exact h.elim

/-- A step of the calling thread that leaves the monitors alone. -/
theorem FenceInv.keep (h : FenceInv s) (hmonitors : t.monitors = s.monitors)
    (hgeneration : t.monitorGeneration = s.monitorGeneration) (hretired : t.Retired → s.Retired)
    (hsource : t.Launching → t.cts.isSome = true) (hcontrol : t.Vacant → t.ownedProcess = none)
    (howned : ¬ s.Retired → t.ownedProcess = s.ownedProcess) : FenceInv t := by
  constructor
  · rw [hmonitors, hgeneration]
    exact h.le
  · rw [hmonitors]
    exact h.unique
  · intro hr
    rw [hmonitors, hgeneration]
    exact h.retired (hretired hr)
  · exact hsource
  · exact hcontrol
  · intro i m hm hcurrent hvacant
    rw [hmonitors] at hm
    rw [hgeneration] at hcurrent
    have hnot : ¬ s.Retired := fun hr => by
      have hlt := h.retired hr i m hm
      omega
    rw [howned hnot]
    exact h.monitor i m hm hcurrent hvacant

theorem FenceInv.monitorStep (h : FenceInv s) {i : Nat} {m m' : Monitor} {answer : ServerAnswer}
    (hm : s.monitors[i]? = some m) (hstep : s.monitorStep m answer = some (s', m')) :
    FenceInv (s'.withMonitor i m') := by
  obtain ⟨hgeneration, hframe⟩ := monitorStep_frame hstep
  have hcontrol : (s'.withMonitor i m').control = s.control := hframe.control
  have hcts : (s'.withMonitor i m').cts = s.cts := hframe.cts
  have hrun : (s'.withMonitor i m').monitorGeneration = s.monitorGeneration := hframe.generation
  have howned : (s'.withMonitor i m').ownedProcess = s'.ownedProcess := rfl
  have hcases : ∀ {j x}, (s'.withMonitor i m').monitors[j]? = some x →
      (i = j ∧ m' = x) ∨ (i ≠ j ∧ s.monitors[j]? = some x) := by
    intro j x hx
    have hlist : (s.monitors.modify i fun _ => m')[j]? = some x := by
      rw [← hframe.monitors]
      exact hx
    rcases getElem?_modify_eq_some.mp hlist with ⟨rfl, -, -, rfl⟩ | hother
    · exact Or.inl ⟨rfl, rfl⟩
    · exact Or.inr hother
  have hretired : (s'.withMonitor i m').Retired → s.Retired := fun hr => by
    unfold Retired at hr ⊢
    rwa [hcontrol, hcts] at hr
  constructor
  · intro j x hx
    rw [hrun]
    rcases hcases hx with ⟨-, rfl⟩ | ⟨-, hx⟩
    · rw [hgeneration]
      exact h.le i m hm
    · exact h.le j x hx
  · intro j k a b ha hb heq
    rcases hcases ha with ⟨rfl, rfl⟩ | ⟨-, ha⟩ <;> rcases hcases hb with ⟨rfl, rfl⟩ | ⟨-, hb⟩
    · rfl
    · exact h.unique i k m b hm hb (hgeneration ▸ heq)
    · exact h.unique j i a m ha hm (hgeneration ▸ heq)
    · exact h.unique j k a b ha hb heq
  · intro hr j x hx
    rw [hrun]
    rcases hcases hx with ⟨-, rfl⟩ | ⟨-, hx⟩
    · rw [hgeneration]
      exact h.retired (hretired hr) i m hm
    · exact h.retired (hretired hr) j x hx
  · intro hl
    rw [hcts]
    refine h.source ?_
    unfold Launching at hl ⊢
    rwa [hcontrol] at hl
  · intro hv
    have hvacant : s.Vacant := by
      unfold Vacant at hv ⊢
      rwa [hcontrol, hcts] at hv
    rw [howned]
    rcases hframe.slot with ⟨hsame, -⟩ | hnone | ⟨hcurrent, -, -⟩
    · rw [hsame]
      exact h.control hvacant
    · exact hnone
    · have hlt := h.retired hvacant.retired i m hm
      simp only [current, Option.all_some, decide_eq_true_eq] at hcurrent
      omega
  · intro j x hx hcurrent hvacant
    rw [hrun] at hcurrent
    rw [howned]
    rcases hframe.slot with ⟨hsame, hback⟩ | hnone | ⟨hfence, -, hnot⟩
    · rw [hsame]
      rcases hcases hx with ⟨-, rfl⟩ | ⟨-, hx⟩
      · exact h.monitor i m hm (hgeneration ▸ hcurrent) (hback hvacant)
      · exact h.monitor j x hx hcurrent hvacant
    · exact hnone
    · simp only [current, Option.all_some, decide_eq_true_eq] at hfence
      rcases hcases hx with ⟨-, rfl⟩ | ⟨hij, hx⟩
      · exact absurd hvacant hnot
      · exact absurd (h.unique i j m x hm hx (by omega)) hij

theorem controlStep_launch {answer : ServerAnswer} {l : Launch} (hcontrol : s.control = .launch l)
    (h : s.controlStep answer = some t) :
    (∃ launched, l = .returned launched ∧ t = s.withControl .runMonitor) ∨
    ∃ s' l', s.launchStep none answer l = some (s', l') ∧ t = s'.withControl (.launch l') := by
  unfold controlStep at h
  rw [hcontrol] at h
  cases l with
  | returned launched =>
    cases h
    exact Or.inl ⟨launched, rfl, rfl⟩
  | _ =>
    simp only [Option.map_eq_some_iff] at h
    obtain ⟨⟨s'', l'⟩, hlaunch, heq⟩ := h
    exact Or.inr ⟨s'', l', hlaunch, heq.symm⟩

theorem controlStep_dispose {answer : ServerAnswer} {goal : ControlGoal} {d : Disposal}
    (hcontrol : s.control = .dispose goal d) (h : s.controlStep answer = some t) :
    (d = .finished ∧ goal = .start ∧
      t = { s with cts := some s.monitors.length, control := .launch .create }) ∨
    (d = .finished ∧ goal = .stop ∧ t = s.withControl .setStopped) ∨
    ∃ s' d', s.disposalStep d = some (s', d') ∧ t = s'.withControl (.dispose goal d') := by
  unfold controlStep at h
  rw [hcontrol] at h
  dsimp only at h
  split at h
  · rename_i hfinished
    cases goal with
    | start =>
      cases h
      exact Or.inl ⟨hfinished, rfl, rfl⟩
    | stop =>
      cases h
      exact Or.inr (Or.inl ⟨hfinished, rfl, rfl⟩)
  · obtain ⟨⟨s'', d'⟩, hdisposal, heq⟩ := Option.map_eq_some_iff.mp h
    exact Or.inr (Or.inr ⟨s'', d', hdisposal, heq.symm⟩)

/-- A monitor after a token is cancelled. -/
theorem monitor_cancelled {cts i : Nat} {m : Monitor}
    (h : (s.monitors.modify cts ({ · with cancelled := true }))[i]? = some m) :
    ∃ before, s.monitors[i]? = some before ∧ m.generation = before.generation ∧
      m.pc = before.pc := by
  rcases getElem?_modify_eq_some.mp h with ⟨-, before, hbefore, rfl⟩ | ⟨-, hbefore⟩
  · exact ⟨before, hbefore, rfl, rfl⟩
  · exact ⟨m, hbefore, rfl, rfl⟩

theorem FenceInv.cancelled (h : FenceInv s) (cts : Nat) :
    FenceInv { s with monitors := s.monitors.modify cts ({ · with cancelled := true }) } := by
  constructor
  · intro i m hm
    obtain ⟨before, hbefore, hgeneration, -⟩ := monitor_cancelled hm
    rw [hgeneration]
    exact h.le i before hbefore
  · intro i j a b ha hb heq
    obtain ⟨a', ha', hga, -⟩ := monitor_cancelled ha
    obtain ⟨b', hb', hgb, -⟩ := monitor_cancelled hb
    exact h.unique i j a' b' ha' hb' (by omega)
  · intro hr i m hm
    obtain ⟨before, hbefore, hgeneration, -⟩ := monitor_cancelled hm
    rw [hgeneration]
    exact h.retired hr i before hbefore
  · exact h.source
  · exact h.control
  · intro i m hm hcurrent hvacant
    obtain ⟨before, hbefore, hgeneration, hpc⟩ := monitor_cancelled hm
    exact h.monitor i before hbefore (hgeneration ▸ hcurrent) (hpc ▸ hvacant)

theorem retired_of {control : ManagerPc} (hcontrol : s.control = control) (hidle : control ≠ .idle)
    (hincrement : ∀ goal cts, control ≠ .increment goal cts) : s.Retired := by
  unfold Retired
  rw [hcontrol]
  cases control with
  | idle => exact absurd rfl hidle
  | increment goal cts => exact absurd rfl (hincrement goal cts)
  | _ => trivial

/-- `StopMonitor`, from the increment on. -/
theorem FenceInv.increment (h : FenceInv s) (goal : ControlGoal) (cts : Option Nat) :
    FenceInv { s with
      monitorGeneration := s.monitorGeneration + 1, control := .cancel goal cts } := by
  constructor
  · exact fun i m hm => Nat.le_succ_of_le (h.le i m hm)
  · exact h.unique
  · exact fun _ i m hm => Nat.lt_succ_of_le (h.le i m hm)
  · exact fun hl => hl.elim
  · exact fun hv => hv.elim
  · intro i m hm hcurrent
    have hle := h.le i m hm
    simp only at hcurrent
    omega

/-- The monitor of a `Start`. -/
theorem FenceInv.runMonitor (h : FenceInv s) (hcontrol : s.control = .runMonitor) :
    FenceInv { s with
      monitors := s.monitors ++ [{ generation := s.monitorGeneration }], control := .idle } := by
  have hretired : s.Retired := retired_of hcontrol (by simp) (by simp)
  have hsource : s.cts ≠ none := by
    have hl : s.Launching := by
      unfold Launching
      rw [hcontrol]
      trivial
    intro hnone
    have hsome := h.source hl
    rw [hnone] at hsome
    cases hsome
  have hcases : ∀ {i m}, (s.monitors ++ [{ generation := s.monitorGeneration }])[i]? = some m →
      s.monitors[i]? = some m ∨
        (i = s.monitors.length ∧ m = { generation := s.monitorGeneration }) := by
    intro i m hm
    rcases Nat.lt_or_ge i s.monitors.length with hlt | hge
    · rw [List.getElem?_append_left hlt] at hm
      exact Or.inl hm
    · rw [List.getElem?_append_right hge, List.getElem?_singleton] at hm
      split at hm
      · exact Or.inr ⟨by omega, (Option.some.inj hm).symm⟩
      · cases hm
  constructor
  · intro i m hm
    rcases hcases hm with hold | ⟨-, rfl⟩
    · exact h.le i m hold
    · exact Nat.le_refl _
  · intro i j a b ha hb heq
    rcases hcases ha with hold | ⟨hi, rfl⟩ <;> rcases hcases hb with hold' | ⟨hj, rfl⟩
    · exact h.unique i j a b hold hold' heq
    · have hlt := h.retired hretired i a hold
      simp only at heq
      omega
    · have hlt := h.retired hretired j b hold'
      simp only at heq
      omega
    · omega
  · exact fun hr => absurd hr hsource
  · exact fun hl => hl.elim
  · exact fun hv => absurd hv hsource
  · intro i m hm hcurrent hvacant
    rcases hcases hm with hold | ⟨-, rfl⟩
    · have hlt := h.retired hretired i m hold
      simp only at hcurrent
      omega
    · exact hvacant.elim

theorem FenceInv.controlStep (h : FenceInv s) {answer : ServerAnswer}
    (hstep : s.controlStep answer = some t) : FenceInv t := by
  cases hcontrol : s.control with
  | idle =>
    rw [ServerManager.controlStep, hcontrol] at hstep
    cases hstep
  | increment goal cts =>
    rw [ServerManager.controlStep, hcontrol] at hstep
    cases hstep
    exact h.increment goal cts
  | cancel goal cts =>
    have hretired : s.Retired := retired_of hcontrol (by simp) (by simp)
    rw [ServerManager.controlStep, hcontrol] at hstep
    cases hstep
    have hcancelled : FenceInv { s with
        monitors := cts.elim s.monitors fun i =>
          s.monitors.modify i ({ · with cancelled := true }) } := by
      cases cts with
      | none => exact h
      | some i => exact h.cancelled i
    exact hcancelled.keep rfl rfl (fun _ => hretired) (fun hl => hl.elim) (fun hv => hv.elim)
      fun _ => rfl
  | detach goal =>
    have hretired : s.Retired := retired_of hcontrol (by simp) (by simp)
    rw [ServerManager.controlStep, hcontrol] at hstep
    cases hstep
    exact h.keep rfl rfl (fun _ => hretired) (fun hl => hl.elim) (fun _ => rfl)
      fun hnot => absurd hretired hnot
  | dispose goal d =>
    have hretired : s.Retired := retired_of hcontrol (by simp) (by simp)
    have howned : s.ownedProcess = none := h.control (by
      unfold Vacant
      rw [hcontrol]
      trivial)
    rcases controlStep_dispose hcontrol hstep with ⟨-, -, rfl⟩ | ⟨-, -, rfl⟩ | ⟨s',
      d', hdisposal, rfl⟩
    · exact h.keep rfl rfl (fun _ => hretired) (fun _ => rfl) (fun _ => howned) fun _ => rfl
    · exact h.keep rfl rfl (fun _ => hretired) (fun hl => hl.elim) (fun _ => howned) fun _ => rfl
    · have hframe : StepFrame s s' none False False := disposalStep_frame hdisposal id
      have hnone : s'.ownedProcess = none := by
        rcases hframe.slot with ⟨hsame, -⟩ | hnone | ⟨-, hfalse, -⟩
        · rw [hsame, howned]
        · exact hnone
        · exact hfalse.elim
      exact h.keep hframe.monitors hframe.generation (fun _ => hretired) (fun hl => hl.elim)
        (fun _ => hnone) fun hnot => absurd hretired hnot
  | launch l =>
    have hretired : s.Retired := retired_of hcontrol (by simp) (by simp)
    have hsource : s.cts.isSome = true := h.source (by
      unfold Launching
      rw [hcontrol]
      trivial)
    rcases controlStep_launch hcontrol hstep with ⟨launched, -, rfl⟩ | ⟨s', l', hlaunch, rfl⟩
    · exact h.keep rfl rfl (fun _ => hretired) (fun _ => hsource) (fun hv => hv.elim) fun _ => rfl
    · have hframe := launchStep_frame hlaunch
      refine h.keep hframe.monitors hframe.generation (fun _ => hretired)
        (fun _ => ?_) (fun hv => ?_)
        fun hnot => absurd hretired hnot
      · exact (congrArg Option.isSome hframe.cts).trans hsource
      · rcases hframe.slot with ⟨hsame, hback⟩ | hnone | ⟨-, -, hnot⟩
        · refine hsame.trans (h.control ?_)
          unfold Vacant
          rw [hcontrol]
          exact hback hv
        · exact hnone
        · exact absurd hv hnot
  | runMonitor =>
    rw [ServerManager.controlStep, hcontrol] at hstep
    cases hstep
    exact h.runMonitor hcontrol
  | setStopped =>
    have hretired : s.Retired := retired_of hcontrol (by simp) (by simp)
    have howned : s.ownedProcess = none := h.control (by
      unfold Vacant
      rw [hcontrol]
      trivial)
    rw [ServerManager.controlStep, hcontrol] at hstep
    cases hstep
    exact h.keep rfl rfl (fun _ => hretired) (fun hl => hl.elim) (fun _ => howned) fun _ => rfl

/-! ## Running processes -/

theorem view_disposal_monitor {i : Nat} {m : Monitor} (hm : s.monitors[i]? = some m) :
    s.view.disposal (some i) = m.pc.disposal := by
  simp only [view, Option.elim_some, hm]

theorem view_launch_monitor {i : Nat} {m : Monitor} (hm : s.monitors[i]? = some m) :
    s.view.launch (some i) = m.pc.launchPc := by
  simp only [view, Option.elim_some, hm]

/-- A step of a monitor that changes no process. -/
theorem monitor_quiet {i : Nat} {m : Monitor} {pc : MonitorPc} (h : ProcessInv s.view)
    (hm : s.monitors[i]? = some m) (hd : m.pc.disposal = .finished)
    (hl : ∀ p, ¬ m.pc.launchPc.Window p) (hd' : ∀ p, ¬ pc.disposal.Late p)
    (hl' : ∀ p, ¬ pc.launchPc.Before p) :
    ProcessInv (s.view.move (some i) pc.disposal pc.launchPc) :=
  quiet_move h ((view_disposal_monitor hm).trans hd) (by rw [view_launch_monitor hm]; exact hl) hd'
    hl'

theorem monitorStep_view {i : Nat} {m m' : Monitor} {answer : ServerAnswer} (h : ProcessInv s.view)
    (hfence : FenceInv s) (hapart : s.ApartAt (some i)) (hm : s.monitors[i]? = some m)
    (hstep : s.monitorStep m answer = some (s', m')) :
    ProcessInv (s'.view.move (some i) m'.pc.disposal m'.pc.launchPc) := by
  have hquiet : ∀ {pc : MonitorPc}, m.pc.disposal = .finished → (∀ p, ¬ m.pc.launchPc.Window p) →
      (∀ p, ¬ pc.disposal.Late p) → (∀ p, ¬ pc.launchPc.Before p) →
      ProcessInv (s.view.move (some i) pc.disposal pc.launchPc) := monitor_quiet h hm
  have hd := view_disposal_monitor hm
  have hl := view_launch_monitor hm
  have hcurrent : s.current (some m.generation) = true → m.generation = s.monitorGeneration := by
    simp [current]
  have hvacant := hfence.monitor i m hm
  clear hm
  obtain ⟨generation, cancelled, restartCount, pc⟩ := m
  cases pc with
  | check =>
    cases hstep
    cases cancelled <;> exact hquiet rfl (fun _ => id) (fun _ => id) fun _ => id
  | delay =>
    simp only [ServerManager.monitorStep] at hstep
    split at hstep
    · cases hstep
      exact hquiet rfl (fun _ => id) (fun _ => id) fun _ => id
    · split at hstep <;> cases hstep
      exact hquiet rfl (fun _ => id) (fun _ => id) fun _ => id
  | getProcess =>
    simp only [ServerManager.monitorStep, Option.some.injEq, Prod.mk.injEq] at hstep
    obtain ⟨rfl, rfl⟩ := hstep
    dsimp only
    cases (if s.current (some generation) then s.ownedProcess else none) <;>
      exact hquiet rfl (fun _ => id) (fun _ => id) fun _ => id
  | checkExited p =>
    simp only [ServerManager.monitorStep] at hstep
    split at hstep <;> cases hstep <;> exact hquiet rfl (fun _ => id) (fun _ => id) fun _ => id
  | getState =>
    simp only [ServerManager.monitorStep, Option.some.injEq, Prod.mk.injEq] at hstep
    obtain ⟨rfl, rfl⟩ := hstep
    dsimp only
    split <;> exact hquiet rfl (fun _ => id) (fun _ => id) fun _ => id
  | setRunning =>
    simp only [ServerManager.monitorStep, Option.some.injEq, Prod.mk.injEq] at hstep
    obtain ⟨rfl, rfl⟩ := hstep
    rw [view_setState]
    exact hquiet rfl (fun _ => id) (fun _ => id) fun _ => id
  | readExitCode p =>
    cases hstep
    exact hquiet rfl (fun _ => id) (fun _ => id) fun _ => id
  | detach p exitCode =>
    rcases hdetach : s.detachOwnedProcess (some p) (some generation) with ⟨s'', detached⟩
    simp only [ServerManager.monitorStep, hdetach, Option.some.injEq, Prod.mk.injEq] at hstep
    obtain ⟨rfl, rfl⟩ := hstep
    have hmove := detach_move (l := .returned false) h hd (by rw [hl]; exact fun _ => id)
      (fun _ => id) false hdetach
    cases detached <;> exact hmove
  | dispose d exitCode =>
    simp only [ServerManager.monitorStep] at hstep
    split at hstep
    · rename_i hfinished
      cases hstep
      exact hquiet hfinished (fun _ => id) (fun _ => id) fun _ => id
    · obtain ⟨⟨s'', d'⟩, hdisposal, heq⟩ := Option.map_eq_some_iff.mp hstep
      cases heq
      exact disposal_move h hdisposal hd (by rw [hl]; exact fun _ => id) (fun _ => id) hapart
  | decide exitCode =>
    simp only [ServerManager.monitorStep] at hstep
    split at hstep
    · cases hstep
      exact hquiet rfl (fun _ => id) (fun _ => id) fun _ => id
    · split at hstep
      · cases hstep
        exact hquiet rfl (fun _ => id) (fun _ => id) fun _ => id
      · split at hstep <;> cases hstep <;>
          exact hquiet rfl (fun _ => id) (fun _ => id) fun _ => id
  | launch l =>
    rcases monitorStep_launch rfl hstep with ⟨launched, rfl, rfl, rfl⟩ | ⟨l', hlaunch, rfl⟩
    · cases launched <;> exact hquiet rfl (fun _ => id) (fun _ => id) fun _ => id
    · exact launch_move h hlaunch hl hd (fun hv hc => hvacant (hcurrent hc) hv) hapart
  | setFinal state =>
    simp only [ServerManager.monitorStep, Option.some.injEq, Prod.mk.injEq] at hstep
    obtain ⟨rfl, rfl⟩ := hstep
    rw [view_setState]
    exact hquiet rfl (fun _ => id) (fun _ => id) fun _ => id
  | ended => cases hstep

theorem view_cancelled (cts : Nat) :
    ServerManager.view
      { s with monitors := s.monitors.modify cts ({ · with cancelled := true }) } = s.view := by
  have hpc : ∀ i : Nat, ((s.monitors.modify cts ({ · with cancelled := true }))[i]?).map
    Monitor.pc =
      (s.monitors[i]?).map Monitor.pc := by
    intro i
    rw [List.getElem?_modify]
    split <;> cases s.monitors[i]? <;> rfl
  have hdisposal : ∀ o : Option Monitor, o.elim Disposal.finished (·.pc.disposal) =
      (o.map Monitor.pc).elim .finished (·.disposal) := fun o => by cases o <;> rfl
  have hlaunch : ∀ o : Option Monitor, o.elim (Launch.returned false) (·.pc.launchPc) =
      (o.map Monitor.pc).elim (.returned false) (·.launchPc) := fun o => by cases o <;> rfl
  unfold view
  simp only [hdisposal, hlaunch, hpc]

/-- A new monitor answers for nothing. -/
theorem view_runMonitor (generation : Nat) :
    ServerManager.view { s with monitors := s.monitors ++ [{ generation }] } = s.view := by
  have hnew : ∀ i : Nat, (s.monitors ++ [({ generation } : Monitor)])[i]? = s.monitors[i]? ∨
      (s.monitors[i]? = none ∧
        (s.monitors ++ [({ generation } : Monitor)])[i]? = some { generation }) := by
    intro i
    rcases Nat.lt_or_ge i s.monitors.length with hlt | hge
    · exact Or.inl (List.getElem?_append_left hlt)
    · rw [List.getElem?_append_right hge, List.getElem?_singleton, List.getElem?_eq_none hge]
      split
      · exact Or.inr ⟨rfl, rfl⟩
      · exact Or.inl rfl
  unfold view
  congr 1
  · funext k
    cases k with
    | none => rfl
    | some i =>
      rcases hnew i with hsame | ⟨hnone, hsome⟩
      · simp only [Option.elim_some, hsame]
      · simp only [Option.elim_some, hsome, hnone]
        rfl
  · funext k
    cases k with
    | none => rfl
    | some i =>
      rcases hnew i with hsame | ⟨hnone, hsome⟩
      · simp only [Option.elim_some, hsame]
      · simp only [Option.elim_some, hsome, hnone]
        rfl

/-- A step of the calling thread that changes no process. -/
theorem control_quiet {control : ManagerPc} (h : ProcessInv s.view)
    (hd : s.control.disposal = .finished) (hl : ∀ p, ¬ s.control.launchPc.Window p)
    (hd' : ∀ p, ¬ control.disposal.Late p) (hl' : ∀ p, ¬ control.launchPc.Before p) :
    ProcessInv (s.withControl control).view := by
  rw [view_withControl]
  exact quiet_move h hd hl hd' hl'

theorem controlStep_view {answer : ServerAnswer} (h : ProcessInv s.view) (hfence : FenceInv s)
    (hapart : s.ApartAt none) (hstep : s.controlStep answer = some t) : ProcessInv t.view := by
  cases hcontrol : s.control with
  | idle =>
    rw [ServerManager.controlStep, hcontrol] at hstep
    cases hstep
  | increment goal cts =>
    rw [ServerManager.controlStep, hcontrol] at hstep
    cases hstep
    exact control_quiet (s := { s with monitorGeneration := s.monitorGeneration + 1 }) h
      (by rw [hcontrol]; rfl) (by rw [hcontrol]; exact fun _ => id) (fun _ => id) fun _ => id
  | cancel goal cts =>
    rw [ServerManager.controlStep, hcontrol] at hstep
    cases hstep
    have hcancelled : ProcessInv (ServerManager.view { s with
        monitors := cts.elim s.monitors fun i =>
          s.monitors.modify i ({ · with cancelled := true }) }) := by
      cases cts with
      | none => exact h
      | some i =>
        rw [Option.elim_some, view_cancelled]
        exact h
    exact control_quiet (s := { s with
      monitors := cts.elim s.monitors fun i => s.monitors.modify i ({ · with cancelled := true }) })
      hcancelled (by rw [hcontrol]; rfl) (by rw [hcontrol]; exact fun _ => id) (fun _ => id)
      fun _ => id
  | detach goal =>
    rcases hdetach : s.detachOwnedProcess none none with ⟨s', detached⟩
    rw [ServerManager.controlStep, hcontrol] at hstep
    simp only [hdetach, Option.some.injEq] at hstep
    subst hstep
    rw [view_withControl]
    exact detach_move (k := none) h (congrArg ManagerPc.disposal hcontrol)
      (by rw [show s.view.launch none = .returned false from congrArg ManagerPc.launchPc hcontrol]
          exact fun _ => id) (fun _ => id) _ hdetach
  | dispose goal d =>
    have hd : s.view.disposal none = d := congrArg ManagerPc.disposal hcontrol
    have hl : s.view.launch none = .returned false := congrArg ManagerPc.launchPc hcontrol
    rcases controlStep_dispose hcontrol hstep with
      ⟨hfinished, -, rfl⟩ | ⟨hfinished, -, rfl⟩ | ⟨s', d', hdisposal, rfl⟩
    · exact control_quiet (s := { s with cts := some s.monitors.length }) h (hd.trans hfinished)
        (fun p => by rw [show s.control.launchPc = .returned false from hl]; exact id) (fun _ => id)
        fun _ => id
    · exact control_quiet h (hd.trans hfinished)
        (fun p => by rw [show s.control.launchPc = .returned false from hl]; exact id) (fun _ => id)
        fun _ => id
    · rw [view_withControl]
      exact disposal_move h hdisposal hd (by rw [hl]; exact fun _ => id) (fun _ => id) hapart
  | launch l =>
    have hd : s.view.disposal none = l.disposal := congrArg ManagerPc.disposal hcontrol
    have hl : s.view.launch none = l := congrArg ManagerPc.launchPc hcontrol
    rcases controlStep_launch hcontrol hstep with ⟨launched, rfl, rfl⟩ | ⟨s', l', hlaunch, rfl⟩
    · exact control_quiet h hd
        (fun p => by rw [show s.control.launchPc = .returned launched from hl]; exact id)
        (fun _ => id) fun _ => id
    · rw [view_withControl]
      refine launch_move h hlaunch hl hd (fun hv _ => hfence.control ?_) hapart
      unfold Vacant
      rw [hcontrol]
      exact hv
  | runMonitor =>
    rw [ServerManager.controlStep, hcontrol] at hstep
    cases hstep
    have hrun : ProcessInv (ServerManager.view
        { s with monitors := s.monitors ++ [{ generation := s.monitorGeneration }] }) := by
      rw [view_runMonitor]
      exact h
    exact control_quiet (s := { s with
      monitors := s.monitors ++ [{ generation := s.monitorGeneration }] }) hrun
      (by rw [hcontrol]; rfl) (by rw [hcontrol]; exact fun _ => id) (fun _ => id) fun _ => id
  | setStopped =>
    rw [ServerManager.controlStep, hcontrol] at hstep
    cases hstep
    refine control_quiet ?_ ?_ ?_ (fun _ => id) fun _ => id
    · rw [view_setState]
      exact h
    · exact congrArg ManagerPc.disposal hcontrol
    · rw [show (s.setState .stopped none).1.control.launchPc = .returned false from
        congrArg ManagerPc.launchPc hcontrol]
      exact fun _ => id

/-! ## Runs -/

structure Inv (s : ServerManager) : Prop where
  fence : FenceInv s
  processes : ProcessInv s.view

theorem Inv.stopAsync (h : Inv s) (hidle : s.control = .idle) : Inv s.stopAsync where
  fence := h.fence.keep rfl rfl (fun hr => hr.elim) (fun hl => hl.elim) (fun hv => hv.elim)
    fun _ => rfl
  processes := control_quiet (s := { s with cts := none }) h.processes
    (congrArg ManagerPc.disposal hidle)
    (by rw [show s.control.launchPc = .returned false from congrArg ManagerPc.launchPc hidle]
        exact fun _ => id) (fun _ => id) fun _ => id

theorem Inv.start (h : Inv s) (hidle : s.control = .idle) (hstep : s.start = some t) : Inv t := by
  unfold ServerManager.start at hstep
  split at hstep
  · cases hstep
  · split at hstep
    · cases hstep
      exact h
    · cases hstep
      exact ⟨h.fence.keep rfl rfl (fun hr => hr.elim) (fun hl => hl.elim) (fun hv => hv.elim)
        fun _ => rfl,
        control_quiet (s := { s with cts := none }) h.processes (congrArg ManagerPc.disposal hidle)
          (by rw [show s.control.launchPc = .returned false from congrArg ManagerPc.launchPc hidle]
              exact fun _ => id) (fun _ => id) fun _ => id⟩

theorem Inv.dispose (h : Inv s) (hidle : s.control = .idle) : Inv s.dispose := by
  unfold ServerManager.dispose
  split
  · exact h
  · have hdisposed : Inv { s with disposed := true } :=
      ⟨h.fence.keep rfl rfl id h.fence.source h.fence.control fun _ => rfl, h.processes⟩
    exact hdisposed.stopAsync hidle

theorem step_monitor_cases {i : Nat} {answer : ServerAnswer}
    (h : s.step (.monitor i answer) = some t) :
    ∃ m s' m', s.monitors[i]? = some m ∧ s.monitorStep m answer = some (s', m') ∧
      t = s'.withMonitor i m' := by
  simp only [ServerManager.step, Option.bind_eq_some_iff, Option.map_eq_some_iff] at h
  obtain ⟨m, hm, ⟨s', m'⟩, hstep, rfl⟩ := h
  exact ⟨m, s', m', hm, hstep, rfl⟩

theorem Inv.step (h : Inv s) {action : ServerAction} (hapart : s.Apart action)
    (hstep : s.step action = some t) : Inv t := by
  cases action with
  | start =>
    simp only [ServerManager.step] at hstep
    split at hstep
    · exact h.start ‹_› hstep
    · cases hstep
  | stopAsync =>
    simp only [ServerManager.step] at hstep
    split at hstep
    · cases hstep
      exact h.stopAsync ‹_›
    · cases hstep
  | dispose =>
    simp only [ServerManager.step] at hstep
    split at hstep
    · cases hstep
      exact h.dispose ‹_›
    · cases hstep
  | control answer =>
    exact ⟨h.fence.controlStep hstep, controlStep_view h.processes h.fence hapart hstep⟩
  | monitor i answer =>
    obtain ⟨m, s', m', hm, hmonitor, rfl⟩ := step_monitor_cases hstep
    refine ⟨h.fence.monitorStep hm hmonitor, ?_⟩
    have hframe := (monitorStep_frame hmonitor).2
    rw [view_withMonitor (hframe.monitors ▸ hm)]
    exact monitorStep_view h.processes h.fence hapart hm hmonitor
  | exit p exitCode =>
    simp only [ServerManager.step] at hstep
    split at hstep
    · cases hstep
      refine ⟨h.fence.keep rfl rfl id h.fence.source h.fence.control fun _ => rfl, ?_⟩
      exact h.processes.withProcess (ServerProcess.running_ended _ _) fun hp => by
        rw [ServerProcess.disposed_ended]
        exact hp
    · cases hstep

theorem inv_initial : Inv {} := by
  refine ⟨⟨?_, ?_, ?_, ?_, fun _ => rfl, ?_⟩, ⟨?_, ?_, ?_, ?_, ?_⟩⟩
  · intro i m hm
    cases i <;> cases hm
  · intro i j a b ha
    cases i <;> cases ha
  · intro _ i m hm
    cases i <;> cases hm
  · exact fun hl => hl.elim
  · exact fun _ _ _ _ _ => rfl
  · intro p hp
    cases hp
  · intro p hp
    cases hp
  · exact fun _ _ _ => rfl
  · intro p hp
    cases hp
  · intro k p hp
    cases k with
    | none => exact hp.elim
    | some i => cases i <;> exact hp.elim

/-- `StopAsync` or `Dispose` has returned, no `Start` came after it, and the monitors have ended. -/
def Settled (s : ServerManager) : Prop :=
  s.control = .idle ∧ s.cts = none ∧
    ∀ (i : Nat) (m : Monitor), s.monitors[i]? = some m → m.pc = .ended

theorem Inv.settled (h : Inv s) (hsettled : s.Settled) (p : Nat) :
    (s.processes p).running = false := by
  obtain ⟨hidle, hcts, hended⟩ := hsettled
  have howned : s.ownedProcess = none := h.fence.control (by
    unfold Vacant
    rw [hidle]
    exact hcts)
  by_contra hrunning
  rw [Bool.not_eq_false] at hrunning
  rcases h.processes.running p hrunning with hp | ⟨k, hk⟩
  · rw [show s.ownedProcess = some p from hp] at howned
    cases howned
  · cases k with
    | none =>
      rw [show s.view.disposal none = .finished from congrArg ManagerPc.disposal hidle] at hk
      exact hk
    | some i =>
      cases hm : s.monitors[i]? with
      | none =>
        simp only [view, Option.elim_some, hm, Option.elim_none] at hk
        exact hk
      | some m =>
        rw [view_disposal_monitor hm, hended i m hm] at hk
        exact hk

/-- **In every run that keeps disposals apart from starts, a monitor older than the last stop
changes neither the state nor the owned process, and after a settled stop no process runs.** -/
theorem stop_final (hrun : Run ServerManager.step Apart {} s) :
    (∀ (i : Nat) (m : Monitor) answer t, s.monitors[i]? = some m → m.generation <
      s.monitorGeneration →
      s.step (.monitor i answer) = some t → t.state = s.state ∧ t.ownedProcess = s.ownedProcess) ∧
    (s.Settled → ∀ p, (s.processes p).running = false) := by
  have hinv : Inv s := hrun.invariant (I := Inv) inv_initial fun _ _ _ h hapart hstep =>
    h.step hapart hstep
  refine ⟨fun i m answer t hm hold hstep => ?_, hinv.settled⟩
  obtain ⟨m', s', after, hm', hmonitor, rfl⟩ := step_monitor_cases hstep
  have hsame : m' = m := Option.some.inj (hm'.symm.trans hm)
  subst hsame
  refine (monitorStep_frame hmonitor).2.fenced ?_
  simp only [current, Option.all_some, decide_eq_false_iff_not]
  omega

/-! ## Runs on the source's own steps -/

/-- The checks of `ApartAt`, over the threads that exist. -/
def apartAtTest (s : ServerManager) (k : Option Nat) : Bool :=
  (match s.view.launch k with
    | .start p => !s.control.disposal.late p && s.monitors.all fun m => !m.pc.disposal.late p
    | _ => true) &&
  match s.view.disposal k with
    | .closeJob p => !(s.processes p).running
    | _ => true

def apartTest (s : ServerManager) : ServerAction → Bool
  | .control _ => s.apartAtTest none
  | .monitor i _ => s.apartAtTest (some i)
  | _ => true

theorem apartAt_of_test {k : Option Nat} (h : s.apartAtTest k = true) : s.ApartAt k := by
  rw [apartAtTest, Bool.and_eq_true] at h
  refine ⟨fun p hp j hj => ?_, fun p hp _ _ => ?_⟩
  · have htest := h.1
    simp only [hp, Bool.and_eq_true, Bool.not_eq_true', List.all_eq_true] at htest
    cases j with
    | none =>
      have hlate := Disposal.late_iff.mpr hj
      rw [show (s.view.disposal none).late p = false from htest.1] at hlate
      cases hlate
    | some i =>
      cases hm : s.monitors[i]? with
      | none =>
        simp only [view, Option.elim_some, hm, Option.elim_none] at hj
        exact hj
      | some m =>
        rw [view_disposal_monitor hm] at hj
        have hlate := Disposal.late_iff.mpr hj
        rw [htest.2 m (List.mem_of_getElem? hm)] at hlate
        cases hlate
  · have htest := h.2
    simpa only [hp, Bool.not_eq_true'] using htest

theorem apart_of_test {action : ServerAction} (h : s.apartTest action = true) : s.Apart action := by
  cases action with
  | control answer => exact apartAt_of_test h
  | monitor i answer => exact apartAt_of_test h
  | _ => trivial

def settledTest (s : ServerManager) : Bool :=
  decide (s.control = .idle) && decide (s.cts = none) &&
    s.monitors.all fun m => decide (m.pc = .ended)

theorem settled_of_test (h : s.settledTest = true) : s.Settled := by
  simp only [settledTest, Bool.and_eq_true, decide_eq_true_eq, List.all_eq_true] at h
  exact ⟨h.1.1, h.1.2, fun i m hm => h.2 m (List.mem_of_getElem? hm)⟩

/-- A server that exits, up to the `_process.Start()` of its restart. -/
def restarting : List ServerAction :=
  .start :: List.replicate 13 (.control .ok) ++ .exit 0 1 :: List.replicate 14 (.monitor 0 .ok)

/-- `StopAsync` whole, before the restarted process is started. -/
theorem stop_final_restarting :
    ∃ s, Run ServerManager.step Apart {} s ∧ s.Settled ∧ s.created = 2 ∧
      ∀ p, (s.processes p).running = false := by
  obtain ⟨s, hrun, htest⟩ := Run.exists_of_exec ServerManager.step (P := Apart) apartTest
    (fun s => s.settledTest && decide (s.created = 2)) {}
    (restarting ++ .stopAsync :: List.replicate 9 (.control .ok) ++
      List.replicate 5 (.monitor 0 .ok))
    (fun _ _ => apart_of_test) (by decide)
  rw [Bool.and_eq_true, decide_eq_true_eq] at htest
  have hsettled := settled_of_test htest.1
  exact ⟨s, hrun, hsettled, htest.2, (stop_final hrun).2 hsettled⟩

/-- The restarted process is started between the disposal's look at its job and its end. -/
theorem runs_after_stop :
    ∃ s, Run ServerManager.step (fun _ _ => True) {} s ∧ s.Settled ∧ s.state = .stopped ∧
      (s.processes 1).running = true := by
  obtain ⟨s, hrun, htest⟩ := Run.exists_of_exec ServerManager.step (P := fun _ _ => True)
    (fun _ _ => true)
    (fun s => s.settledTest && (decide (s.state = .stopped) && (s.processes 1).running)) {}
    (restarting ++ .stopAsync :: List.replicate 5 (.control .ok) ++
      .monitor 0 .ok :: List.replicate 4 (.control .ok) ++ List.replicate 6 (.monitor 0 .ok))
    (fun _ _ _ => trivial) (by decide)
  simp only [Bool.and_eq_true, decide_eq_true_eq] at htest
  exact ⟨s, hrun, settled_of_test htest.1, htest.2.1, htest.2.2⟩

end ServerManager

end LocalMediaTransfer
