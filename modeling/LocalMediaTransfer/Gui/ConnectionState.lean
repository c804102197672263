import Mathlib.Tactic
import LocalMediaTransfer.Gui.PipeConnectionLoop
import LocalMediaTransfer.Lib.Tally

/-!
# The connection state of the GUI's pipe

`SetConnectionState` and the generation check before it are separate steps, and the event is raised
after the lock.  What goes wrong is a `Stop`, or a newer connection, between two such steps.

* `Placed` — where the steps of `Stop` and of a newer connection may not fall.
* `PipeInv` — what holds between any two steps.
* `connection_state` — in every run that meets `Placed`, a stopped client is disconnected and has
  last said so, and an older loop leaves the connection state alone.
* `connected_after_stop`, `raised_after_stop`, `older_loop_disconnects` — the three placements.
-/

set_option autoImplicit false

namespace LocalMediaTransfer

open Lib

namespace PipeClient

variable {s t : PipeClient}

/-! ## Statements -/

/-- Loop number `i`. -/
def At (s : PipeClient) (i : Nat) (loop : ReadLoop) : Prop := s.loops[i]? = some loop

/-- `Stop` has returned, no `Start` came after it, and the loops have ended. -/
def Stopped (s : PipeClient) : Prop :=
  s.control = .idle ∧ s.readTask = none ∧ ∀ i loop, s.At i loop → loop.pc = .ended

/-- A loop with a larger generation has been started. -/
def Older (s : PipeClient) (loop : ReadLoop) : Prop :=
  ∃ j newer, s.At j newer ∧ loop.generation < newer.generation

/-- `Stop` sets the state while no loop is about to set it to connected, it raises its event while
no loop has its own event to raise, and a loop connects while no older one is about to
disconnect. -/
def Placed (s : PipeClient) : PipeAction → Prop
  | .control =>
    (s.control = .setFalse → ∀ i loop, s.At i loop → loop.pc ≠ .setTrue) ∧
    (s.control = .raiseFalse → ∀ i loop, s.At i loop → loop.pc ≠ .raiseTrue)
  | .loop i _ =>
    ∀ loop, s.At i loop → loop.pc = .setTrue →
      ∀ j other exit, s.At j other → other.pc = .setFalse exit →
        loop.generation ≤ other.generation
  | _ => True

/-! ## Control positions -/

/-- `Stop` has advanced the generation and has not yet set the state. -/
def Stopping (s : PipeClient) : Prop :=
  (∃ cts, s.control = .cancel cts) ∨ s.control = .disconnect ∨ (∃ pipe, s.control = .dispose pipe) ∨
    s.control = .setFalse

/-- The run of a generation goes on, or its `Stop` has not yet set the state. -/
def Live (s : PipeClient) (generation : Nat) : Prop :=
  generation = s.runGeneration ∨ (generation + 1 = s.runGeneration ∧ s.Stopping)

/-- No loop of the current generation exists. -/
def Vacant (s : PipeClient) : Prop :=
  s.Stopping ∨ s.control = .launch ∨ s.control = .raiseFalse ∨
    (s.control = .idle ∧ s.readTask = none)

end PipeClient

namespace LoopPc

/-- With a published pipe, before the state is set. -/
def Opening : LoopPc → Prop
  | .connect | .checkRun | .readMode | .authenticate => True
  | _ => False

/-- From the event to the end of the finally block. -/
def Connected : LoopPc → Prop
  | .raiseTrue | .read | .disconnect _ | .checkFinally _ | .setFalse _ => True
  | _ => False

/-- Between two rounds, or ended. -/
def Resting : LoopPc → Prop
  | .check | .delay | .ended => True
  | _ => False

end LoopPc

namespace PipeClient

variable {s t : PipeClient}

/-! ## The steps of a loop -/

theorem afterRound_resting (loop : ReadLoop) (exit : RoundExit) :
    (afterRound loop exit).pc.Resting ∧ (afterRound loop exit).generation = loop.generation ∧
      (afterRound loop exit).pipe = loop.pipe := by
  cases exit <;> exact ⟨trivial, rfl, rfl⟩

/-- What the step of a loop does to the connection state and the events. -/
inductive StateEffect (s : PipeClient) (loop : ReadLoop) : PipeClient → ReadLoop → Prop where
  | connects {s' : PipeClient} {loop' : ReadLoop} (hpc : loop.pc = .setTrue)
      (hbefore : s.isConnected = false) (hstate : s' = { s with isConnected := true })
      (hpc' : loop'.pc = .raiseTrue) : StateEffect s loop s' loop'
  | announces {s' : PipeClient} {loop' : ReadLoop} (hpc : loop.pc = .raiseTrue)
      (hstate : s' = { s with events := s.events ++ [true] }) (hpc' : loop'.pc = .read) :
      StateEffect s loop s' loop'
  | disconnects {s' : PipeClient} {loop' : ReadLoop} {exit : RoundExit}
      (hpc : loop.pc = .setFalse exit) (hbefore : s.isConnected = true)
      (hstate : s' = { s with isConnected := false }) (hpc' : loop'.pc = .raiseFalse exit) :
      StateEffect s loop s' loop'
  | withdraws {s' : PipeClient} {loop' : ReadLoop} {exit : RoundExit}
      (hpc : loop.pc = .raiseFalse exit) (hstate : s' = { s with events := s.events ++ [false] })
      (hpc' : loop'.pc.Resting) : StateEffect s loop s' loop'
  /-- Neither changes. -/
  | quiet {s' : PipeClient} {loop' : ReadLoop} (hconnected : s'.isConnected = s.isConnected)
      (hevents : s'.events = s.events) (hraiseTrue : loop'.pc ≠ .raiseTrue)
      (hraiseFalse : ∀ exit, loop.pc ≠ .raiseFalse exit)
      (hsetTrue : loop'.pc = .setTrue → loop.pc.Opening ∧ s.isDisposed loop.pipe = false)
      (hsetFalse : ∀ exit, loop'.pc = .setFalse exit → loop.generation = s.runGeneration)
      (hsegment : loop.pc.Connected → loop'.pc.Connected ∨ loop.generation ≠ s.runGeneration ∨
        s.isConnected = false) : StateEffect s loop s' loop'

/-- A step of a loop leaves the other fields and the loop's generation alone. -/
structure LoopFrame (s : PipeClient) (loop : ReadLoop) (s' : PipeClient)
    (loop' : ReadLoop) : Prop where
  generation : loop'.generation = loop.generation
  runGeneration : s'.runGeneration = s.runGeneration
  control : s'.control = s.control
  readTask : s'.readTask = s.readTask
  cts : s'.cts = s.cts
  loops : s'.loops = s.loops

theorem loopStep_frame {loop : ReadLoop} {answer : PipeAnswer} {s' : PipeClient} {loop' : ReadLoop}
    (h : s.loopStep loop answer = some (s', loop')) : LoopFrame s loop s' loop' := by
  obtain ⟨generation, cancelled, pipe, pc⟩ := loop
  cases pc <;> simp only [loopStep] at h <;> (try split at h) <;> (try split at h) <;>
    simp only [Option.some.injEq, Prod.mk.injEq, reduceCtorEq] at h <;>
    obtain ⟨rfl, rfl⟩ := h <;>
    first
      | exact ⟨rfl, rfl, rfl, rfl, rfl, rfl⟩
      | exact ⟨(afterRound_resting _ _).2.1, rfl, rfl, rfl, rfl, rfl⟩

/-- A step that changes neither state nor events and does not enter an event or a lock. -/
theorem StateEffect.move {loop loop' : ReadLoop} {s' : PipeClient}
    (hconnected : s'.isConnected = s.isConnected) (hevents : s'.events = s.events)
    (hraiseFalse : ∀ exit, loop.pc ≠ .raiseFalse exit)
    (hplain : loop'.pc ≠ .raiseTrue ∧ loop'.pc ≠ .setTrue ∧ ∀ exit, loop'.pc ≠ .setFalse exit)
    (hsegment : loop.pc.Connected → loop'.pc.Connected ∨ loop.generation ≠ s.runGeneration ∨
      s.isConnected = false) : StateEffect s loop s' loop' :=
  .quiet hconnected hevents hplain.1 hraiseFalse (fun h => absurd h hplain.2.1)
    (fun exit h => absurd h (hplain.2.2 exit)) hsegment

theorem afterRound_plain (loop : ReadLoop) (exit : RoundExit) :
    (afterRound loop exit).pc ≠ .raiseTrue ∧ (afterRound loop exit).pc ≠ .setTrue ∧
      ∀ exit', (afterRound loop exit).pc ≠ .setFalse exit' := by
  cases exit <;> simp [afterRound]

theorem loopStep_effect {loop : ReadLoop} {answer : PipeAnswer} {s' : PipeClient} {loop' : ReadLoop}
    (h : s.loopStep loop answer = some (s', loop')) : StateEffect s loop s' loop' := by
  obtain ⟨generation, cancelled, pipe, pc⟩ := loop
  have hplain : ∀ exit : RoundExit, LoopPc.disconnect exit ≠ .raiseTrue ∧
      LoopPc.disconnect exit ≠ .setTrue ∧ ∀ exit', LoopPc.disconnect exit ≠ .setFalse exit' :=
    fun exit => by simp
  cases pc with
  | check =>
    simp only [loopStep] at h
    split at h <;> cases h <;>
      exact .move rfl rfl (by simp) (by simp) fun hseg => hseg.elim
  | publish =>
    simp only [loopStep] at h
    split at h <;> cases h <;>
      exact .move rfl rfl (by simp) (by simp) fun hseg => hseg.elim
  | connect =>
    simp only [loopStep] at h
    split at h
    · split at h <;> cases h
      exact .move rfl rfl (by simp) (by simp) fun hseg => hseg.elim
    · cases h
      exact .move rfl rfl (by simp) (hplain _) fun hseg => hseg.elim
    · cases h
  | checkRun =>
    simp only [loopStep] at h
    split at h <;> cases h <;>
      exact .move rfl rfl (by simp) (by simp) fun hseg => hseg.elim
  | readMode =>
    simp only [loopStep] at h
    split at h
    · split at h <;> cases h
      rename_i hpipe
      refine .quiet rfl rfl ?_ (by simp) (fun _ => ⟨trivial, by simpa using hpipe⟩) ?_
        fun hseg => hseg.elim
      · split <;> simp
      · split <;> simp
    · cases h
      exact .move rfl rfl (by simp) (hplain _) fun hseg => hseg.elim
    · cases h
  | authenticate =>
    simp only [loopStep] at h
    split at h
    · split at h <;> cases h
      rename_i hpipe
      rw [Bool.or_eq_true, not_or, Bool.not_eq_true, Bool.not_eq_true] at hpipe
      exact .quiet rfl rfl (by simp) (by simp) (fun _ => ⟨trivial, hpipe.2⟩) (by simp)
        fun hseg => hseg.elim
    · cases h
      exact .move rfl rfl (by simp) (hplain _) fun hseg => hseg.elim
    · cases h
  | setTrue =>
    simp only [loopStep] at h
    split at h
    · cases h
      exact .move rfl rfl (by simp) (by simp) fun _ => Or.inl trivial
    · rename_i hdisconnected
      cases h
      exact .connects rfl (by simpa using hdisconnected) rfl rfl
  | raiseTrue =>
    cases h
    exact .announces rfl rfl rfl
  | read =>
    simp only [loopStep] at h
    split at h
    · split at h <;> cases h
      exact .move rfl rfl (by simp) (by simp) fun _ => Or.inl trivial
    · cases h
      exact .move rfl rfl (by simp) (hplain _) fun _ => Or.inl trivial
    · cases h
      exact .move rfl rfl (by simp) (hplain _) fun _ => Or.inl trivial
  | disconnect exit =>
    cases h
    exact .move rfl rfl (by simp) (by simp) fun _ => Or.inl trivial
  | checkFinally exit =>
    simp only [loopStep] at h
    split at h
    · rename_i hcurrent
      cases h
      exact .quiet rfl rfl (by simp) (by simp) (by simp) (fun _ _ => hcurrent)
        fun _ => Or.inl trivial
    · rename_i hold
      cases h
      exact .move rfl rfl (by simp) (afterRound_plain _ exit) fun _ => Or.inr (Or.inl hold)
  | setFalse exit =>
    simp only [loopStep] at h
    split at h
    · rename_i hconnected
      cases h
      exact .disconnects rfl hconnected rfl rfl
    · rename_i hdisconnected
      cases h
      exact .move rfl rfl (by simp) (afterRound_plain _ exit)
        fun _ => Or.inr (Or.inr (by simpa using hdisconnected))
  | raiseFalse exit =>
    cases h
    exact .withdraws rfl rfl (afterRound_resting _ exit).1
  | delay =>
    cases h
    exact .move rfl rfl (by simp) (by simp) fun hseg => hseg.elim
  | ended => cases h

/-- What the step of a loop does to the published pipe. -/
inductive PipeEffect (s : PipeClient) (loop : ReadLoop) : PipeClient → ReadLoop → Prop where
  | published {s' : PipeClient} {loop' : ReadLoop} (hcurrent : loop.generation = s.runGeneration)
      (hpipe : s'.pipe = some loop.pipe) (hdisposed : s'.disposedPipes = s.disposedPipes)
      (hpipe' : loop'.pipe = loop.pipe) : PipeEffect s loop s' loop'
  | released {s' : PipeClient} {loop' : ReadLoop}
      (hdisposed : s'.disposedPipes = loop.pipe :: s.disposedPipes)
      (hkeep : ∀ pipe, pipe ≠ loop.pipe → s.pipe = some pipe → s'.pipe = some pipe)
      (hpc' : ¬ loop'.pc.Opening) : PipeEffect s loop s' loop'
  | kept {s' : PipeClient} {loop' : ReadLoop} (hpipe : s'.pipe = s.pipe)
      (hdisposed : s'.disposedPipes = s.disposedPipes)
      (hopen : loop'.pc.Opening → loop.pc.Opening ∧ loop'.pipe = loop.pipe) :
      PipeEffect s loop s' loop'

theorem PipeEffect.rest {loop loop' : ReadLoop} (h : ¬ loop'.pc.Opening) :
    PipeEffect s loop s loop' :=
  .kept rfl rfl fun hopen => absurd hopen h

theorem afterRound_not_opening (loop : ReadLoop) (exit : RoundExit) :
    ¬ (afterRound loop exit).pc.Opening := by
  cases exit <;> exact id

theorem loopStep_pipes {loop : ReadLoop} {answer : PipeAnswer} {s' : PipeClient} {loop' : ReadLoop}
    (h : s.loopStep loop answer = some (s', loop')) : PipeEffect s loop s' loop' := by
  obtain ⟨generation, cancelled, pipe, pc⟩ := loop
  cases pc with
  | check =>
    simp only [loopStep] at h
    split at h <;> cases h
    · exact .rest id
    · exact .kept rfl rfl fun hopen => hopen.elim
  | publish =>
    simp only [loopStep] at h
    split at h
    · rename_i hcurrent
      cases h
      exact .published hcurrent rfl rfl rfl
    · cases h
      exact .released rfl (fun _ _ hpipe => hpipe) id
  | connect | authenticate =>
    simp only [loopStep] at h
    split at h
    · split at h <;> cases h
      exact .kept rfl rfl fun _ => ⟨trivial, rfl⟩
    · cases h
      exact .rest id
    · cases h
  | checkRun =>
    simp only [loopStep] at h
    split at h <;> cases h
    · exact .kept rfl rfl fun _ => ⟨trivial, rfl⟩
    · exact .rest id
  | readMode =>
    simp only [loopStep] at h
    split at h
    · split at h <;> cases h
      exact .kept rfl rfl fun _ => ⟨trivial, rfl⟩
    · cases h
      exact .rest id
    · cases h
  | setTrue =>
    simp only [loopStep] at h
    split at h <;> cases h
    · exact .rest id
    · exact .kept rfl rfl fun hopen => hopen.elim
  | raiseTrue =>
    cases h
    exact .kept rfl rfl fun hopen => hopen.elim
  | read =>
    simp only [loopStep] at h
    split at h
    · split at h <;> cases h
      exact .rest id
    · cases h
      exact .rest id
    · cases h
      exact .rest id
  | disconnect exit =>
    cases h
    refine .released rfl (fun other hne hpipe => ?_) id
    have hother : s.pipe ≠ some pipe := by
      rw [hpipe]
      exact fun he => hne (Option.some.inj he)
    exact (if_neg hother).trans hpipe
  | checkFinally exit =>
    simp only [loopStep] at h
    split at h <;> cases h
    · exact .rest id
    · exact .rest (afterRound_not_opening _ exit)
  | setFalse exit =>
    simp only [loopStep] at h
    split at h <;> cases h
    · exact .kept rfl rfl fun hopen => hopen.elim
    · exact .rest (afterRound_not_opening _ exit)
  | raiseFalse exit =>
    cases h
    exact .kept rfl rfl fun hopen => absurd hopen (afterRound_not_opening _ exit)
  | delay =>
    cases h
    exact .rest id
  | ended => cases h

/-! ## The invariant -/

/-- The pipe of this loop is published, in a run that goes on or is about to be disconnected. -/
def Held (s : PipeClient) (loop : ReadLoop) : Prop :=
  (s.pipe = some loop.pipe ∧ (loop.generation = s.runGeneration ∨
    (loop.generation + 1 = s.runGeneration ∧
      ((∃ cts, s.control = .cancel cts) ∨ s.control = .disconnect)))) ∨
  (s.control = .dispose loop.pipe ∧ loop.generation + 1 = s.runGeneration)

/-- **What holds between any two steps.** -/
structure PipeInv (s : PipeClient) : Prop where
  le : ∀ i loop, s.At i loop → loop.generation ≤ s.runGeneration
  unique : ∀ i j a b, s.At i a → s.At j b → a.generation = b.generation → i = j
  vacant : s.Vacant → ∀ i loop, s.At i loop → loop.generation < s.runGeneration
  opening : ∀ i loop, s.At i loop → loop.pc.Opening → s.isDisposed loop.pipe = false → s.Held loop
  setTrue : ∀ i loop, s.At i loop → loop.pc = .setTrue → s.Live loop.generation
  setFalse : ∀ i loop exit, s.At i loop → loop.pc = .setFalse exit →
    s.Live loop.generation ∨ s.isConnected = false
  raiseTrue : ∀ i loop, s.At i loop → loop.pc = .raiseTrue →
    (s.Live loop.generation ∧ s.isConnected = true) ∨ s.control = .raiseFalse
  connected : s.isConnected = true → s.Stopping ∨
    ∃ i loop, s.At i loop ∧ loop.generation = s.runGeneration ∧ loop.pc.Connected
  last : s.events.getLast? = some true → s.isConnected = true ∨ s.control = .raiseFalse ∨
    ∃ i loop exit, s.At i loop ∧ loop.pc = .raiseFalse exit

theorem Held.live {loop : ReadLoop} (h : s.Held loop) : s.Live loop.generation := by
  rcases h with ⟨-, hcurrent | ⟨hlast, hcontrol⟩⟩ | ⟨hcontrol, hlast⟩
  · exact Or.inl hcurrent
  · rcases hcontrol with hcontrol | hcontrol
    · exact Or.inr ⟨hlast, Or.inl hcontrol⟩
    · exact Or.inr ⟨hlast, Or.inr (Or.inl hcontrol)⟩
  · exact Or.inr ⟨hlast, Or.inr (Or.inr (Or.inl ⟨_, hcontrol⟩))⟩

/-- Two loops whose runs go on are one. -/
theorem PipeInv.live_unique (h : PipeInv s) {i j : Nat} {a b : ReadLoop} (ha : s.At i a)
    (hb : s.At j b) (hla : s.Live a.generation) (hlb : s.Live b.generation) : i = j := by
  refine h.unique i j a b ha hb ?_
  rcases hla with hla | ⟨hla, hstopping⟩ <;> rcases hlb with hlb | ⟨hlb, hstopping'⟩
  · omega
  · have hlt := h.vacant (Or.inl hstopping') i a ha
    omega
  · have hlt := h.vacant (Or.inl hstopping) j b hb
    omega
  · omega

/-- Where no loop of the current generation exists and `Stop` is not at work, no run goes on. -/
theorem PipeInv.not_live (h : PipeInv s) (hvacant : s.Vacant) (hstopping : ¬ s.Stopping) {i : Nat}
    {loop : ReadLoop} (hloop : s.At i loop) : ¬ s.Live loop.generation := by
  rintro (hlive | ⟨-, hstop⟩)
  · have hlt := h.vacant hvacant i loop hloop
    omega
  · exact hstopping hstop

/-! ## The calling thread -/

/-- Nothing changes but the published pipe, the disposed pipes and the position of the calling
thread. -/
theorem PipeInv.carry (h : PipeInv s) (hrun : t.runGeneration = s.runGeneration)
    (hloops : t.loops = s.loops) (hconnected : t.isConnected = s.isConnected)
    (hevents : t.events = s.events) (hstopping : t.Stopping ↔ s.Stopping)
    (hvacant : t.Vacant → s.Vacant) (hraise : s.control = .raiseFalse → t.control = .raiseFalse)
    (hheld : ∀ i loop, s.At i loop → t.isDisposed loop.pipe = false →
      s.isDisposed loop.pipe = false ∧ (s.Held loop → t.Held loop)) : PipeInv t := by
  have hat : ∀ i loop, t.At i loop ↔ s.At i loop := fun i loop => by unfold At; rw [hloops]
  have hlive : ∀ generation, t.Live generation ↔ s.Live generation := fun generation => by
    unfold Live; rw [hrun, hstopping]
  constructor
  · intro i loop hloop
    rw [hrun]
    exact h.le i loop ((hat i loop).mp hloop)
  · intro i j a b ha hb
    exact h.unique i j a b ((hat i a).mp ha) ((hat j b).mp hb)
  · intro hv i loop hloop
    rw [hrun]
    exact h.vacant (hvacant hv) i loop ((hat i loop).mp hloop)
  · intro i loop hloop hopen hdisposed
    obtain ⟨hbefore, hkeep⟩ := hheld i loop ((hat i loop).mp hloop) hdisposed
    exact hkeep (h.opening i loop ((hat i loop).mp hloop) hopen hbefore)
  · intro i loop hloop hpc
    exact (hlive _).mpr (h.setTrue i loop ((hat i loop).mp hloop) hpc)
  · intro i loop exit hloop hpc
    rw [hlive, hconnected]
    exact h.setFalse i loop exit ((hat i loop).mp hloop) hpc
  · intro i loop hloop hpc
    rw [hlive, hconnected]
    exact (h.raiseTrue i loop ((hat i loop).mp hloop) hpc).imp_right hraise
  · intro hc
    rw [hstopping, hrun]
    refine (h.connected (hconnected ▸ hc)).imp_right ?_
    rintro ⟨i, loop, hloop, hrest⟩
    exact ⟨i, loop, (hat i loop).mpr hloop, hrest⟩
  · intro hlast
    rw [hconnected]
    refine (h.last (hevents ▸ hlast)).imp_right fun hor => hor.imp hraise ?_
    rintro ⟨i, loop, exit, hloop, hpc⟩
    exact ⟨i, loop, exit, (hat i loop).mpr hloop, hpc⟩

theorem not_stopping_idle (hidle : s.control = .idle) : ¬ s.Stopping := by
  rintro (⟨cts, h⟩ | h | ⟨pipe, h⟩ | h) <;> rw [hidle] at h <;> cases h

theorem not_stopping_increment (cts : Option Nat) (hcontrol : s.control = .increment cts) :
    ¬ s.Stopping := by
  rintro (⟨cts, h⟩ | h | ⟨pipe, h⟩ | h) <;> rw [hcontrol] at h <;> cases h

theorem not_stopping_launch (hcontrol : s.control = .launch) : ¬ s.Stopping := by
  rintro (⟨cts, h⟩ | h | ⟨pipe, h⟩ | h) <;> rw [hcontrol] at h <;> cases h

theorem not_stopping_raiseFalse (hcontrol : s.control = .raiseFalse) : ¬ s.Stopping := by
  rintro (⟨cts, h⟩ | h | ⟨pipe, h⟩ | h) <;> rw [hcontrol] at h <;> cases h

theorem not_vacant_increment (cts : Option Nat) (hcontrol : s.control = .increment cts) :
    ¬ s.Vacant := by
  rintro (h | h | h | ⟨h, -⟩)
  · exact not_stopping_increment cts hcontrol h
  all_goals rw [hcontrol] at h; cases h

/-- What is published while `Stop` is not at work belongs to the current run. -/
theorem Held.current {loop : ReadLoop} (h : s.Held loop) (hstopping : ¬ s.Stopping) :
    s.pipe = some loop.pipe ∧ loop.generation = s.runGeneration := by
  rcases h with ⟨hpipe, hcurrent | ⟨-, hcontrol⟩⟩ | ⟨hcontrol, -⟩
  · exact ⟨hpipe, hcurrent⟩
  · exact absurd (hcontrol.imp_right Or.inl) hstopping
  · exact absurd (Or.inr (Or.inr (Or.inl ⟨_, hcontrol⟩))) hstopping

theorem PipeInv.stop (h : PipeInv s) (hidle : s.control = .idle) : PipeInv s.stop := by
  have hno : ¬ s.stop.Stopping := not_stopping_increment (s := s.stop) s.cts rfl
  refine h.carry rfl rfl rfl rfl ?_ ?_ ?_ ?_
  · exact iff_of_false hno (not_stopping_idle hidle)
  · exact fun hv => absurd hv (not_vacant_increment (s := s.stop) s.cts rfl)
  · intro hraise
    rw [hidle] at hraise
    cases hraise
  · intro i loop _ hdisposed
    refine ⟨hdisposed, fun hheld => ?_⟩
    obtain ⟨hpipe, hcurrent⟩ := hheld.current (not_stopping_idle hidle)
    exact Or.inl ⟨hpipe, Or.inl hcurrent⟩

theorem PipeInv.dispose (h : PipeInv s) (hidle : s.control = .idle) : PipeInv s.dispose := by
  unfold PipeClient.dispose
  split
  · exact h
  · have hdisposed : PipeInv { s with disposed := true } :=
      h.carry rfl rfl rfl rfl Iff.rfl id id fun _ _ _ hpipe => ⟨hpipe, id⟩
    exact hdisposed.stop hidle

/-- No run goes on where no loop of the current generation exists. -/
theorem PipeInv.disconnected (h : PipeInv s) (hvacant : s.Vacant) (hstopping : ¬ s.Stopping) :
    s.isConnected = false := by
  by_contra hconnected
  rw [Bool.not_eq_false] at hconnected
  rcases h.connected hconnected with hstop | ⟨i, loop, hloop, hcurrent, -⟩
  · exact hstopping hstop
  · have hlt := h.vacant hvacant i loop hloop
    omega

theorem PipeInv.start (h : PipeInv s) (hidle : s.control = .idle) : PipeInv s.start := by
  unfold PipeClient.start
  split
  · exact h
  · rename_i hready
    have htask : s.readTask = none := by
      rw [Bool.or_eq_true, not_or] at hready
      simpa using hready.2
    have hvacant : s.Vacant := Or.inr (Or.inr (Or.inr ⟨hidle, htask⟩))
    have hstopping := not_stopping_idle hidle
    have hnone : ∀ i loop, s.At i loop → ¬ s.Live loop.generation := fun i loop hloop =>
      h.not_live hvacant hstopping hloop
    have hoff := h.disconnected hvacant hstopping
    constructor
    · intro i loop hloop
      have hle := h.le i loop hloop
      exact Nat.le_succ_of_le hle
    · exact h.unique
    · intro _ i loop hloop
      have hle := h.le i loop hloop
      exact Nat.lt_succ_of_le hle
    · intro i loop hloop hopen hdisposed
      exact absurd (h.opening i loop hloop hopen hdisposed).live (hnone i loop hloop)
    · intro i loop hloop hpc
      exact absurd (h.setTrue i loop hloop hpc) (hnone i loop hloop)
    · exact fun _ _ _ _ _ => Or.inr hoff
    · intro i loop hloop hpc
      rcases h.raiseTrue i loop hloop hpc with ⟨hlive, -⟩ | hraise
      · exact absurd hlive (hnone i loop hloop)
      · rw [hidle] at hraise
        cases hraise
    · intro hconnected
      rw [show s.isConnected = true from hconnected] at hoff
      cases hoff
    · intro hlast
      rcases h.last hlast with hconnected | hraise | hloop
      · exact Or.inl hconnected
      · rw [hidle] at hraise
        cases hraise
      · exact Or.inr (Or.inr hloop)

theorem PipeInv.launch (h : PipeInv s) (hcontrol : s.control = .launch) :
    PipeInv { s with
      cts := some s.loops.length
      readTask := some s.loops.length
      loops := s.loops ++ [{ generation := s.runGeneration }]
      control := .idle } := by
  have hvacant : s.Vacant := Or.inr (Or.inl hcontrol)
  have hstopping := not_stopping_launch hcontrol
  have hoff := h.disconnected hvacant hstopping
  have hsplit : ∀ (i : Nat) (loop : ReadLoop),
      (s.loops ++ [{ generation := s.runGeneration }])[i]? = some loop →
        s.At i loop ∨ (i = s.loops.length ∧ loop = { generation := s.runGeneration }) := by
    intro i loop hloop
    rcases Nat.lt_or_ge i s.loops.length with hlt | hge
    · rw [List.getElem?_append_left hlt] at hloop
      exact Or.inl hloop
    · rw [List.getElem?_append_right hge] at hloop
      rcases hi : i - s.loops.length with _ | k
      · rw [hi] at hloop
        exact Or.inr ⟨by omega, by simpa using hloop.symm⟩
      · rw [hi] at hloop
        simp at hloop
  have hnone : ∀ i loop, s.At i loop → ¬ s.Live loop.generation := fun i loop hloop =>
    h.not_live hvacant hstopping hloop
  constructor
  · intro i loop hloop
    rcases hsplit i loop hloop with hold | ⟨-, rfl⟩
    · exact h.le i loop hold
    · exact Nat.le_refl _
  · intro i j a b ha hb hgeneration
    rcases hsplit i a ha with hold | ⟨hi, rfl⟩ <;> rcases hsplit j b hb with hold' | ⟨hj, rfl⟩
    · exact h.unique i j a b hold hold' hgeneration
    · have hlt := h.vacant hvacant i a hold
      simp only at hgeneration
      omega
    · have hlt := h.vacant hvacant j b hold'
      simp only at hgeneration
      omega
    · omega
  · rintro (hstop | hv | hv | ⟨-, hv⟩)
    · exact absurd hstop (not_stopping_idle rfl)
    all_goals cases hv
  · intro i loop hloop hopen hdisposed
    rcases hsplit i loop hloop with hold | ⟨-, rfl⟩
    · exact absurd (h.opening i loop hold hopen hdisposed).live (hnone i loop hold)
    · exact hopen.elim
  · intro i loop hloop hpc
    rcases hsplit i loop hloop with hold | ⟨-, rfl⟩
    · exact absurd (h.setTrue i loop hold hpc) (hnone i loop hold)
    · cases hpc
  · exact fun _ _ _ _ _ => Or.inr hoff
  · intro i loop hloop hpc
    rcases hsplit i loop hloop with hold | ⟨-, rfl⟩
    · rcases h.raiseTrue i loop hold hpc with ⟨hlive, -⟩ | hraise
      · exact absurd hlive (hnone i loop hold)
      · rw [hcontrol] at hraise
        cases hraise
    · cases hpc
  · intro hconnected
    rw [show s.isConnected = true from hconnected] at hoff
    cases hoff
  · intro hlast
    rcases h.last hlast with hconnected | hraise | ⟨i, loop, exit, hloop, hpc⟩
    · exact Or.inl hconnected
    · rw [hcontrol] at hraise
      cases hraise
    · refine Or.inr (Or.inr ⟨i, loop, exit, ?_, hpc⟩)
      obtain ⟨hlt, -⟩ := List.getElem?_eq_some_iff.mp hloop
      exact (List.getElem?_append_left hlt).trans hloop

theorem PipeInv.increment (h : PipeInv s) {cts : Option Nat}
    (hcontrol : s.control = .increment cts) :
    PipeInv { s with runGeneration := s.runGeneration + 1, control := .cancel cts } := by
  have hstopping := not_stopping_increment cts hcontrol
  have hafter : PipeClient.Stopping
      { s with runGeneration := s.runGeneration + 1, control := .cancel cts } := Or.inl ⟨cts, rfl⟩
  have hlive : ∀ generation, s.Live generation → PipeClient.Live
      { s with runGeneration := s.runGeneration + 1, control := .cancel cts } generation := by
    rintro generation (hcurrent | ⟨-, hstop⟩)
    · exact Or.inr ⟨congrArg (· + 1) hcurrent, hafter⟩
    · exact absurd hstop hstopping
  constructor
  · intro i loop hloop
    have hle := h.le i loop hloop
    exact Nat.le_succ_of_le hle
  · exact h.unique
  · intro _ i loop hloop
    have hle := h.le i loop hloop
    exact Nat.lt_succ_of_le hle
  · intro i loop hloop hopen hdisposed
    obtain ⟨hpipe, hcurrent⟩ := (h.opening i loop hloop hopen hdisposed).current hstopping
    exact Or.inl ⟨hpipe, Or.inr ⟨congrArg (· + 1) hcurrent, Or.inl ⟨cts, rfl⟩⟩⟩
  · exact fun i loop hloop hpc => hlive _ (h.setTrue i loop hloop hpc)
  · exact fun i loop exit hloop hpc => (h.setFalse i loop exit hloop hpc).imp_left (hlive _)
  · intro i loop hloop hpc
    rcases h.raiseTrue i loop hloop hpc with ⟨hl, hconnected⟩ | hraise
    · exact Or.inl ⟨hlive _ hl, hconnected⟩
    · rw [hcontrol] at hraise
      cases hraise
  · exact fun _ => Or.inl hafter
  · intro hlast
    rcases h.last hlast with hconnected | hraise | hloop
    · exact Or.inl hconnected
    · rw [hcontrol] at hraise
      cases hraise
    · exact Or.inr (Or.inr hloop)

/-- A loop after its token is cancelled. -/
theorem at_modify_cancelled {cts i : Nat} {loop : ReadLoop}
    (h : (s.loops.modify cts ({ · with cancelled := true }))[i]? = some loop) :
    ∃ before, s.At i before ∧ loop.generation = before.generation ∧ loop.pc = before.pc ∧
      loop.pipe = before.pipe := by
  rcases getElem?_modify_eq_some.mp h with ⟨-, before, hbefore, rfl⟩ | ⟨-, hbefore⟩
  · exact ⟨before, hbefore, rfl, rfl, rfl⟩
  · exact ⟨loop, hbefore, rfl, rfl, rfl⟩

theorem modify_cancelled_at (cts : Nat) {i : Nat} {before : ReadLoop} (h : s.At i before) :
    ∃ loop, (s.loops.modify cts ({ · with cancelled := true }))[i]? = some loop ∧
      loop.generation = before.generation ∧ loop.pc = before.pc := by
  by_cases hi : cts = i
  · exact ⟨_, getElem?_modify_eq_some.mpr (Or.inl ⟨hi, before, h, rfl⟩), rfl, rfl⟩
  · exact ⟨before, getElem?_modify_eq_some.mpr (Or.inr ⟨hi, h⟩), rfl, rfl⟩

/-- Cancelling a token changes nothing that the invariant reads. -/
theorem PipeInv.cancelled (h : PipeInv s) (cts : Nat) :
    PipeInv { s with loops := s.loops.modify cts ({ · with cancelled := true }) } := by
  constructor
  · intro i loop hloop
    obtain ⟨before, hbefore, hgeneration, -⟩ := at_modify_cancelled hloop
    rw [hgeneration]
    exact h.le i before hbefore
  · intro i j a b ha hb hgeneration
    obtain ⟨a', ha', hga, -⟩ := at_modify_cancelled ha
    obtain ⟨b', hb', hgb, -⟩ := at_modify_cancelled hb
    exact h.unique i j a' b' ha' hb' (by omega)
  · intro hv i loop hloop
    obtain ⟨before, hbefore, hgeneration, -⟩ := at_modify_cancelled hloop
    rw [hgeneration]
    exact h.vacant hv i before hbefore
  · intro i loop hloop hopen hdisposed
    obtain ⟨before, hbefore, hgeneration, hpc, hpipe⟩ := at_modify_cancelled hloop
    have hheld := h.opening i before hbefore (hpc ▸ hopen) (hpipe ▸ hdisposed)
    unfold Held
    rw [hgeneration, hpipe]
    exact hheld
  · intro i loop hloop hset
    obtain ⟨before, hbefore, hgeneration, hpc, -⟩ := at_modify_cancelled hloop
    rw [hgeneration]
    exact h.setTrue i before hbefore (hpc ▸ hset)
  · intro i loop exit hloop hset
    obtain ⟨before, hbefore, hgeneration, hpc, -⟩ := at_modify_cancelled hloop
    rw [hgeneration]
    exact h.setFalse i before exit hbefore (hpc ▸ hset)
  · intro i loop hloop hset
    obtain ⟨before, hbefore, hgeneration, hpc, -⟩ := at_modify_cancelled hloop
    rw [hgeneration]
    exact h.raiseTrue i before hbefore (hpc ▸ hset)
  · intro hconnected
    refine (h.connected hconnected).imp_right ?_
    rintro ⟨i, before, hbefore, hcurrent, hpc⟩
    obtain ⟨loop, hloop, hgeneration, hpc'⟩ := modify_cancelled_at cts hbefore
    exact ⟨i, loop, hloop, hgeneration.trans hcurrent, hpc' ▸ hpc⟩
  · intro hlast
    refine (h.last hlast).imp_right fun hor => hor.imp_right ?_
    rintro ⟨i, before, exit, hbefore, hpc⟩
    obtain ⟨loop, hloop, -, hpc'⟩ := modify_cancelled_at cts hbefore
    exact ⟨i, loop, exit, hloop, hpc'.trans hpc⟩

theorem PipeInv.cancel (h : PipeInv s) {cts : Option Nat} (hcontrol : s.control = .cancel cts) :
    PipeInv { s with
      loops := cts.elim s.loops fun i => s.loops.modify i ({ · with cancelled := true })
      control := .disconnect } := by
  have hcancelled : PipeInv { s with
      loops := cts.elim s.loops fun i => s.loops.modify i ({ · with cancelled := true }) } := by
    cases cts with
    | none => exact h
    | some i => exact h.cancelled i
  have hstopping : s.Stopping := Or.inl ⟨cts, hcontrol⟩
  refine hcancelled.carry rfl rfl rfl rfl ?_ ?_ ?_ ?_
  · exact iff_of_true (Or.inr (Or.inl rfl)) hstopping
  · exact fun _ => Or.inl hstopping
  · intro hraise
    rw [show s.control = .raiseFalse from hraise] at hcontrol
    cases hcontrol
  · intro i loop hloop hdisposed
    refine ⟨hdisposed, ?_⟩
    rintro (⟨hpipe, hcurrent | ⟨hlast, -⟩⟩ | ⟨hdispose, -⟩)
    · exact Or.inl ⟨hpipe, Or.inl hcurrent⟩
    · exact Or.inl ⟨hpipe, Or.inr ⟨hlast, Or.inr rfl⟩⟩
    · rw [show s.control = .dispose loop.pipe from hdispose] at hcontrol
      cases hcontrol

theorem PipeInv.disconnect (h : PipeInv s) (hcontrol : s.control = .disconnect) :
    PipeInv { s with pipe := none, control := s.pipe.elim .setFalse .dispose } := by
  have hstopping : s.Stopping := Or.inr (Or.inl hcontrol)
  refine h.carry rfl rfl rfl rfl ?_ ?_ ?_ ?_
  · refine iff_of_true ?_ hstopping
    cases hpipe : s.pipe with
    | none => exact Or.inr (Or.inr (Or.inr rfl))
    | some pipe => exact Or.inr (Or.inr (Or.inl ⟨pipe, rfl⟩))
  · exact fun _ => Or.inl hstopping
  · intro hraise
    rw [hcontrol] at hraise
    cases hraise
  · intro i loop hloop hdisposed
    refine ⟨hdisposed, ?_⟩
    rintro (⟨hpipe, hcurrent | ⟨hlast, -⟩⟩ | ⟨hdispose, -⟩)
    · have hlt := h.vacant (Or.inl hstopping) i loop hloop
      omega
    · refine Or.inr ⟨?_, hlast⟩
      simp only [hpipe, Option.elim_some]
    · rw [hdispose] at hcontrol
      cases hcontrol

theorem PipeInv.disposePipe (h : PipeInv s) {pipe : Nat} (hcontrol : s.control = .dispose pipe) :
    PipeInv { s with disposedPipes := pipe :: s.disposedPipes, control := .setFalse } := by
  have hstopping : s.Stopping := Or.inr (Or.inr (Or.inl ⟨pipe, hcontrol⟩))
  refine h.carry rfl rfl rfl rfl ?_ ?_ ?_ ?_
  · exact iff_of_true (Or.inr (Or.inr (Or.inr rfl))) hstopping
  · exact fun _ => Or.inl hstopping
  · intro hraise
    rw [hcontrol] at hraise
    cases hraise
  · intro i loop hloop hdisposed
    simp only [isDisposed, List.mem_cons, decide_eq_false_iff_not, not_or] at hdisposed
    refine ⟨by simpa [isDisposed] using hdisposed.2, ?_⟩
    rintro (⟨-, hcurrent | ⟨-, hcancel⟩⟩ | ⟨hdispose, -⟩)
    · have hlt := h.vacant (Or.inl hstopping) i loop hloop
      omega
    · rw [hcontrol] at hcancel
      rcases hcancel with ⟨cts, hcancel⟩ | hcancel <;> cases hcancel
    · rw [hcontrol] at hdispose
      exact absurd (ControlPc.dispose.inj hdispose).symm hdisposed.1

theorem PipeInv.sendFailure (h : PipeInv s) :
    PipeInv { s with
      pipe := none
      disposedPipes := s.pipe.elim s.disposedPipes (· :: s.disposedPipes) } := by
  refine h.carry rfl rfl rfl rfl Iff.rfl id id ?_
  intro i loop _ hdisposed
  cases hpipe : s.pipe with
  | none =>
    refine ⟨by simpa [isDisposed, hpipe] using hdisposed, ?_⟩
    rintro (⟨hheld, -⟩ | hdispose)
    · rw [hpipe] at hheld
      cases hheld
    · exact Or.inr hdispose
  | some pipe =>
    simp only [isDisposed, hpipe, Option.elim_some, List.mem_cons, decide_eq_false_iff_not,
      not_or] at hdisposed
    refine ⟨by simpa [isDisposed] using hdisposed.2, ?_⟩
    rintro (⟨hheld, -⟩ | hdispose)
    · rw [hpipe] at hheld
      exact absurd (Option.some.inj hheld).symm hdisposed.1
    · exact Or.inr hdispose

theorem stopping_vacant_of_setFalse (hcontrol : s.control = .setFalse) : s.Vacant :=
  Or.inl (Or.inr (Or.inr (Or.inr hcontrol)))

/-- After `Stop` has set the state or raised its event, no run goes on. -/
theorem PipeInv.settle (h : PipeInv s) (hvacant : s.Vacant)
    (hrun : t.runGeneration = s.runGeneration)
    (hloops : t.loops = s.loops) (hdisposed : t.disposedPipes = s.disposedPipes)
    (hheld : ∀ i loop, s.At i loop → ¬ s.Held loop)
    (hset : ∀ i loop, s.At i loop → loop.pc ≠ .setTrue) (hoff : t.isConnected = false)
    (hraise : ∀ i loop, s.At i loop → loop.pc = .raiseTrue → t.control = .raiseFalse)
    (hlast : t.events.getLast? = some true → t.control = .raiseFalse ∨
      ∃ i loop exit, s.At i loop ∧ loop.pc = .raiseFalse exit) : PipeInv t := by
  have hat : ∀ i loop, t.At i loop ↔ s.At i loop := fun i loop => by unfold At; rw [hloops]
  constructor
  · intro i loop hloop
    rw [hrun]
    exact h.le i loop ((hat i loop).mp hloop)
  · intro i j a b ha hb
    exact h.unique i j a b ((hat i a).mp ha) ((hat j b).mp hb)
  · intro _ i loop hloop
    rw [hrun]
    exact h.vacant hvacant i loop ((hat i loop).mp hloop)
  · intro i loop hloop hopen hpipes
    have hbefore : s.isDisposed loop.pipe = false := by
      unfold isDisposed at hpipes ⊢
      rw [← hdisposed]
      exact hpipes
    have hloop' := (hat i loop).mp hloop
    exact absurd (h.opening i loop hloop' hopen hbefore) (hheld i loop hloop')
  · intro i loop hloop hpc
    exact absurd hpc (hset i loop ((hat i loop).mp hloop))
  · exact fun _ _ _ _ _ => Or.inr hoff
  · exact fun i loop hloop hpc => Or.inr (hraise i loop ((hat i loop).mp hloop) hpc)
  · intro hconnected
    rw [hoff] at hconnected
    cases hconnected
  · intro hl
    refine Or.inr ((hlast hl).imp_right ?_)
    rintro ⟨i, loop, exit, hloop, hpc⟩
    exact ⟨i, loop, exit, (hat i loop).mpr hloop, hpc⟩

theorem PipeInv.not_held_setFalse (h : PipeInv s) (hcontrol : s.control = .setFalse) (i : Nat)
    (loop : ReadLoop) (hloop : s.At i loop) : ¬ s.Held loop := by
  rintro (⟨-, hcurrent | ⟨-, hcancel⟩⟩ | ⟨hdispose, -⟩)
  · have hlt := h.vacant (stopping_vacant_of_setFalse hcontrol) i loop hloop
    omega
  · rw [hcontrol] at hcancel
    rcases hcancel with ⟨cts, hcancel⟩ | hcancel <;> cases hcancel
  · rw [hcontrol] at hdispose
    cases hdispose

theorem PipeInv.setState (h : PipeInv s) (hcontrol : s.control = .setFalse)
    (hplaced : ∀ i loop, s.At i loop → loop.pc ≠ .setTrue) (hstep : s.controlStep = some t) :
    PipeInv t := by
  have hvacant := stopping_vacant_of_setFalse hcontrol
  have hheld := h.not_held_setFalse hcontrol
  unfold controlStep at hstep
  rw [hcontrol] at hstep
  dsimp only at hstep
  split at hstep
  · cases hstep
    exact h.settle hvacant rfl rfl rfl hheld hplaced rfl (fun _ _ _ _ => rfl)
      fun _ => Or.inl rfl
  · rename_i hoff
    cases hstep
    rw [Bool.not_eq_true] at hoff
    refine h.settle hvacant rfl rfl rfl hheld hplaced hoff ?_ ?_
    · intro i loop hloop hpc
      rcases h.raiseTrue i loop hloop hpc with ⟨-, hconnected⟩ | hraise
      · rw [hoff] at hconnected
        cases hconnected
      · rw [hcontrol] at hraise
        cases hraise
    · intro hlast
      rcases h.last hlast with hconnected | hraise | hloop
      · rw [hoff] at hconnected
        cases hconnected
      · rw [hcontrol] at hraise
        cases hraise
      · exact Or.inr hloop

theorem PipeInv.raiseEvent (h : PipeInv s) (hcontrol : s.control = .raiseFalse)
    (hplaced : ∀ i loop, s.At i loop → loop.pc ≠ .raiseTrue) :
    PipeInv { s with events := s.events ++ [false], control := .idle } := by
  have hvacant : s.Vacant := Or.inr (Or.inr (Or.inl hcontrol))
  have hstopping := not_stopping_raiseFalse hcontrol
  have hnone : ∀ i loop, s.At i loop → ¬ s.Live loop.generation := fun i loop hloop =>
    h.not_live hvacant hstopping hloop
  refine h.settle hvacant rfl rfl rfl ?_ ?_ (h.disconnected hvacant hstopping) ?_ ?_
  · exact fun i loop hloop hheld => hnone i loop hloop hheld.live
  · exact fun i loop hloop hpc => hnone i loop hloop (h.setTrue i loop hloop hpc)
  · exact fun i loop hloop hpc => absurd hpc (hplaced i loop hloop)
  · intro hlast
    rw [List.getLast?_concat] at hlast
    cases hlast

theorem PipeInv.control (h : PipeInv s) (hplaced : s.Placed .control)
    (hstep : s.controlStep = some t) : PipeInv t := by
  cases hcontrol : s.control with
  | setFalse => exact h.setState hcontrol (hplaced.1 hcontrol) hstep
  | idle =>
    rw [controlStep, hcontrol] at hstep
    cases hstep
  | launch =>
    rw [controlStep, hcontrol] at hstep
    cases hstep
    exact h.launch hcontrol
  | increment cts =>
    rw [controlStep, hcontrol] at hstep
    cases hstep
    exact h.increment hcontrol
  | cancel cts =>
    rw [controlStep, hcontrol] at hstep
    cases hstep
    exact h.cancel hcontrol
  | disconnect =>
    rw [controlStep, hcontrol] at hstep
    cases hstep
    exact h.disconnect hcontrol
  | dispose pipe =>
    rw [controlStep, hcontrol] at hstep
    cases hstep
    exact h.disposePipe hcontrol
  | raiseFalse =>
    rw [controlStep, hcontrol] at hstep
    cases hstep
    exact h.raiseEvent hcontrol (hplaced.2 hcontrol)

/-! ## The read loops -/

/-- The loops after the step of one of them. -/
def withLoop (s' : PipeClient) (i : Nat) (loop' : ReadLoop) : PipeClient :=
  { s' with loops := s'.loops.modify i fun _ => loop' }

theorem LoopFrame.at_withLoop {s' : PipeClient} {loop loop' : ReadLoop}
    (hframe : LoopFrame s loop s' loop') {i j : Nat} (hloop : s.At i loop) {x : ReadLoop} :
    (s'.withLoop i loop').At j x ↔ (i = j ∧ loop' = x) ∨ (i ≠ j ∧ s.At j x) := by
  have hmodify := getElem?_modify_eq_some (l := s.loops) (i := i) (g := fun _ => loop') (j := j)
    (b := x)
  unfold At withLoop
  rw [hframe.loops, hmodify]
  refine or_congr_left (and_congr_right fun hij => ⟨?_, fun hx => ?_⟩)
  · rintro ⟨-, -, hx⟩
    exact hx
  · exact ⟨loop, hij ▸ hloop, hx⟩

theorem LoopFrame.at_self {s' : PipeClient} {loop loop' : ReadLoop}
    (hframe : LoopFrame s loop s' loop') {i : Nat} (hloop : s.At i loop) :
    (s'.withLoop i loop').At i loop' :=
  (hframe.at_withLoop hloop).mpr (Or.inl ⟨rfl, rfl⟩)

theorem LoopFrame.at_other {s' : PipeClient} {loop loop' x : ReadLoop}
    (hframe : LoopFrame s loop s' loop') {i j : Nat} (hloop : s.At i loop) (hij : i ≠ j)
    (hx : s.At j x) : (s'.withLoop i loop').At j x :=
  (hframe.at_withLoop hloop).mpr (Or.inr ⟨hij, hx⟩)

theorem LoopFrame.stopping_iff {s' : PipeClient} {loop loop' : ReadLoop}
    (hframe : LoopFrame s loop s' loop') (i : Nat) :
    (s'.withLoop i loop').Stopping ↔ s.Stopping := by
  unfold Stopping withLoop
  rw [hframe.control]

theorem LoopFrame.live_iff {s' : PipeClient} {loop loop' : ReadLoop}
    (hframe : LoopFrame s loop s' loop') (i generation : Nat) :
    (s'.withLoop i loop').Live generation ↔ s.Live generation := by
  unfold Live
  rw [hframe.stopping_iff i, show (s'.withLoop i loop').runGeneration = s.runGeneration from
    hframe.runGeneration]

theorem LoopFrame.vacant_iff {s' : PipeClient} {loop loop' : ReadLoop}
    (hframe : LoopFrame s loop s' loop') (i : Nat) :
    (s'.withLoop i loop').Vacant ↔ s.Vacant := by
  unfold Vacant
  rw [hframe.stopping_iff i, show (s'.withLoop i loop').control = s.control from hframe.control,
    show (s'.withLoop i loop').readTask = s.readTask from hframe.readTask]

/-- The published pipe of another loop is not replaced. -/
theorem PipeInv.held_other (h : PipeInv s) {i j : Nat} {loop loop' x : ReadLoop} {s' : PipeClient}
    (hframe : LoopFrame s loop s' loop') (hpipes : PipeEffect s loop s' loop')
    (hloop : s.At i loop) (hij : i ≠ j) (hx : s.At j x) (hopen : x.pc.Opening)
    (hdisposed : s'.isDisposed x.pipe = false) : (s'.withLoop i loop').Held x := by
  cases hpipes with
  | published hcurrent hpipe hpipes hpipe' =>
    have hbefore : s.isDisposed x.pipe = false := by
      unfold isDisposed at hdisposed ⊢
      rwa [hpipes] at hdisposed
    have hheld := h.opening j x hx hopen hbefore
    exact absurd (h.live_unique hloop hx (Or.inl hcurrent) hheld.live) hij
  | released hpipes hkeep hpc' =>
    simp only [isDisposed, hpipes, List.mem_cons, decide_eq_false_iff_not, not_or] at hdisposed
    have hbefore : s.isDisposed x.pipe = false := by simpa [isDisposed] using hdisposed.2
    unfold Held
    rw [show (s'.withLoop i loop').runGeneration = s.runGeneration from hframe.runGeneration,
      show (s'.withLoop i loop').control = s.control from hframe.control]
    refine (h.opening j x hx hopen hbefore).imp_left ?_
    rintro ⟨hpipe, hrest⟩
    exact ⟨hkeep _ hdisposed.1 hpipe, hrest⟩
  | kept hpipe hpipes hopen' =>
    have hbefore : s.isDisposed x.pipe = false := by
      unfold isDisposed at hdisposed ⊢
      rwa [hpipes] at hdisposed
    unfold Held
    rw [show (s'.withLoop i loop').runGeneration = s.runGeneration from hframe.runGeneration,
      show (s'.withLoop i loop').control = s.control from hframe.control,
      show (s'.withLoop i loop').pipe = s.pipe from hpipe]
    exact h.opening j x hx hopen hbefore

theorem PipeInv.held_self (h : PipeInv s) {i : Nat} {loop loop' : ReadLoop} {s' : PipeClient}
    (hframe : LoopFrame s loop s' loop') (hpipes : PipeEffect s loop s' loop')
    (hloop : s.At i loop) (hopen : loop'.pc.Opening)
    (hdisposed : s'.isDisposed loop'.pipe = false) :
    (s'.withLoop i loop').Held loop' := by
  cases hpipes with
  | published hcurrent hpipe hpipes hpipe' =>
    refine Or.inl ⟨hpipe.trans (congrArg some hpipe'.symm), Or.inl ?_⟩
    exact hframe.generation.trans (hcurrent.trans hframe.runGeneration.symm)
  | released hpipes hkeep hpc' => exact absurd hopen hpc'
  | kept hpipe hpipes hopen' =>
    obtain ⟨hbefore, hsame⟩ := hopen' hopen
    have hundisposed : s.isDisposed loop.pipe = false := by
      unfold isDisposed at hdisposed ⊢
      rwa [hpipes, hsame] at hdisposed
    unfold Held
    rw [show (s'.withLoop i loop').runGeneration = s.runGeneration from hframe.runGeneration,
      show (s'.withLoop i loop').control = s.control from hframe.control,
      show (s'.withLoop i loop').pipe = s.pipe from hpipe, hsame, hframe.generation]
    exact h.opening i loop hloop hbefore hundisposed

/-- What a step of a loop does to the state, seen from a loop that waits to disconnect. -/
theorem PipeInv.setFalse_step (h : PipeInv s) {i j : Nat} {loop loop' x : ReadLoop}
    {s' : PipeClient} {exit : RoundExit} (heffect : StateEffect s loop s' loop')
    (hloop : s.At i loop) (hij : i ≠ j) (hx : s.At j x) (hpc : x.pc = .setFalse exit)
    (hplaced : loop.pc = .setTrue → loop.generation ≤ x.generation) :
    s.Live x.generation ∨ s'.isConnected = false := by
  cases heffect with
  | connects hset hbefore hstate hpc' =>
    have hle := hplaced hset
    have hlex := h.le j x hx
    rcases h.setTrue i loop hloop hset with hcurrent | ⟨hlast, hstopping⟩
    · exact Or.inl (Or.inl (by omega))
    · have hlt := h.vacant (Or.inl hstopping) j x hx
      exact absurd (h.unique i j loop x hloop hx (by omega)) hij
  | announces hset hstate hpc' =>
    subst hstate
    exact h.setFalse j x exit hx hpc
  | disconnects hset hbefore hstate hpc' =>
    subst hstate
    exact Or.inr rfl
  | withdraws hset hstate hpc' =>
    subst hstate
    exact h.setFalse j x exit hx hpc
  | quiet hconnected =>
    rw [hconnected]
    exact h.setFalse j x exit hx hpc

theorem PipeInv.raiseTrue_step (h : PipeInv s) {i j : Nat} {loop loop' x : ReadLoop}
    {s' : PipeClient} (heffect : StateEffect s loop s' loop') (hloop : s.At i loop) (hij : i ≠ j)
    (hx : s.At j x) (hpc : x.pc = .raiseTrue) :
    (s.Live x.generation ∧ s'.isConnected = true) ∨ s.control = .raiseFalse := by
  have hbefore := h.raiseTrue j x hx hpc
  cases heffect with
  | connects hset hoff hstate hpc' =>
    subst hstate
    exact hbefore.imp_left fun hor => ⟨hor.1, rfl⟩
  | announces hset hstate hpc' =>
    subst hstate
    exact hbefore
  | disconnects hset hon hstate hpc' =>
    rcases hbefore with ⟨hlive, -⟩ | hraise
    · rcases h.setFalse i loop _ hloop hset with hliveLoop | hoff
      · exact absurd (h.live_unique hloop hx hliveLoop hlive) hij
      · rw [hon] at hoff
        cases hoff
    · exact Or.inr hraise
  | withdraws hset hstate hpc' =>
    subst hstate
    exact hbefore
  | quiet hconnected =>
    rw [hconnected]
    exact hbefore

theorem resting_not_pending {pc : LoopPc} (h : pc.Resting) :
    pc ≠ .setTrue ∧ pc ≠ .raiseTrue ∧ (∀ exit, pc ≠ .setFalse exit) ∧
      ∀ exit, pc ≠ .raiseFalse exit := by
  cases pc <;> first | exact h.elim | simp

theorem PipeInv.setTrue_self (h : PipeInv s) {i : Nat} {loop loop' : ReadLoop} {s' : PipeClient}
    (heffect : StateEffect s loop s' loop') (hloop : s.At i loop) (hpc : loop'.pc = .setTrue) :
    s.Live loop.generation := by
  cases heffect with
  | connects _ _ _ hpc' | announces _ _ hpc' | disconnects _ _ _ hpc' =>
    rw [hpc'] at hpc
    cases hpc
  | withdraws _ _ hpc' => exact absurd hpc (resting_not_pending hpc').1
  | quiet _ _ _ _ hsetTrue =>
    obtain ⟨hopen, hdisposed⟩ := hsetTrue hpc
    exact (h.opening i loop hloop hopen hdisposed).live

theorem StateEffect.setFalse_self {loop loop' : ReadLoop} {s' : PipeClient} {exit : RoundExit}
    (heffect : StateEffect s loop s' loop') (hpc : loop'.pc = .setFalse exit) :
    loop.generation = s.runGeneration := by
  cases heffect with
  | connects _ _ _ hpc' | announces _ _ hpc' | disconnects _ _ _ hpc' =>
    rw [hpc'] at hpc
    cases hpc
  | withdraws _ _ hpc' => exact absurd hpc ((resting_not_pending hpc').2.2.1 exit)
  | quiet _ _ _ _ _ hsetFalse => exact hsetFalse exit hpc

theorem PipeInv.raiseTrue_self (h : PipeInv s) {i : Nat} {loop loop' : ReadLoop} {s' : PipeClient}
    (heffect : StateEffect s loop s' loop') (hloop : s.At i loop) (hpc : loop'.pc = .raiseTrue) :
    s.Live loop.generation ∧ s'.isConnected = true := by
  cases heffect with
  | connects hset _ hstate _ =>
    subst hstate
    exact ⟨h.setTrue i loop hloop hset, rfl⟩
  | announces _ _ hpc' | disconnects _ _ _ hpc' =>
    rw [hpc'] at hpc
    cases hpc
  | withdraws _ _ hpc' => exact absurd hpc (resting_not_pending hpc').2.1
  | quiet _ _ hraiseTrue => exact absurd hpc hraiseTrue

/-- The loop that holds a connected state up. -/
theorem PipeInv.connected_step (h : PipeInv s) {i : Nat} {loop loop' : ReadLoop} {s' : PipeClient}
    (heffect : StateEffect s loop s' loop') (hloop : s.At i loop) (hon : s'.isConnected = true) :
    s.Stopping ∨ (loop.generation = s.runGeneration ∧ loop'.pc.Connected) ∨
      ∃ j x, i ≠ j ∧ s.At j x ∧ x.generation = s.runGeneration ∧ x.pc.Connected := by
  have hsplit : ∀ hbefore : s.isConnected = true,
      (loop.generation = s.runGeneration → loop.pc.Connected → loop'.pc.Connected) →
      s.Stopping ∨ (loop.generation = s.runGeneration ∧ loop'.pc.Connected) ∨
        ∃ j x, i ≠ j ∧ s.At j x ∧ x.generation = s.runGeneration ∧ x.pc.Connected := by
    intro hbefore hkeep
    refine (h.connected hbefore).imp_right ?_
    rintro ⟨j, x, hx, hcurrent, hpc⟩
    by_cases hij : i = j
    · subst hij
      have hsame : loop = x := Option.some.inj (hloop.symm.trans hx)
      subst hsame
      exact Or.inl ⟨hcurrent, hkeep hcurrent hpc⟩
    · exact Or.inr ⟨j, x, hij, hx, hcurrent, hpc⟩
  cases heffect with
  | connects hset hbefore hstate hpc' =>
    rcases h.setTrue i loop hloop hset with hcurrent | ⟨-, hstopping⟩
    · exact Or.inr (Or.inl ⟨hcurrent, by rw [hpc']; trivial⟩)
    · exact Or.inl hstopping
  | announces hset hstate hpc' =>
    subst hstate
    exact hsplit hon fun _ _ => by rw [hpc']; trivial
  | disconnects hset hbefore hstate hpc' =>
    subst hstate
    cases hon
  | withdraws hset hstate hpc' =>
    subst hstate
    refine hsplit hon fun _ hpc => ?_
    rw [hset] at hpc
    exact hpc.elim
  | quiet hconnected _ _ _ _ _ hsegment =>
    rw [hconnected] at hon
    refine hsplit hon fun hcurrent hpc => ?_
    rcases hsegment hpc with hafter | hold | hoff
    · exact hafter
    · exact absurd hcurrent hold
    · rw [hon] at hoff
      cases hoff

/-- Who is left to withdraw the last event. -/
theorem PipeInv.last_step (h : PipeInv s) {i : Nat} {loop loop' : ReadLoop} {s' : PipeClient}
    (heffect : StateEffect s loop s' loop') (hloop : s.At i loop)
    (hlast : s'.events.getLast? = some true) :
    s'.isConnected = true ∨ s.control = .raiseFalse ∨ (∃ exit, loop'.pc = .raiseFalse exit) ∨
      ∃ j x exit, i ≠ j ∧ s.At j x ∧ x.pc = .raiseFalse exit := by
  cases heffect with
  | connects hset hbefore hstate hpc' =>
    subst hstate
    exact Or.inl rfl
  | announces hset hstate hpc' =>
    subst hstate
    exact (h.raiseTrue i loop hloop hset).imp And.right Or.inl
  | disconnects hset hbefore hstate hpc' => exact Or.inr (Or.inr (Or.inl ⟨_, hpc'⟩))
  | withdraws hset hstate hpc' =>
    subst hstate
    rw [List.getLast?_concat] at hlast
    cases hlast
  | quiet hconnected hevents _ hraiseFalse =>
    rw [hconnected]
    rw [hevents] at hlast
    refine (h.last hlast).imp_right fun hor => hor.imp_right ?_
    rintro ⟨j, x, exit, hx, hpc⟩
    refine Or.inr ⟨j, x, exit, ?_, hx, hpc⟩
    rintro rfl
    have hsame : loop = x := Option.some.inj (hloop.symm.trans hx)
    exact hraiseFalse exit (hsame ▸ hpc)

theorem PipeInv.loopStep (h : PipeInv s) {i : Nat} {loop loop' : ReadLoop} {answer : PipeAnswer}
    {s' : PipeClient} (hloop : s.At i loop) (hplaced : s.Placed (.loop i answer))
    (hstep : s.loopStep loop answer = some (s', loop')) : PipeInv (s'.withLoop i loop') := by
  have hframe := loopStep_frame hstep
  have heffect := loopStep_effect hstep
  have hpipes := loopStep_pipes hstep
  have hrun : (s'.withLoop i loop').runGeneration = s.runGeneration := hframe.runGeneration
  have hcontrol : (s'.withLoop i loop').control = s.control := hframe.control
  have hconnected : (s'.withLoop i loop').isConnected = s'.isConnected := rfl
  have hcases : ∀ {j x}, (s'.withLoop i loop').At j x → (i = j ∧ loop' = x) ∨ (i ≠ j ∧ s.At j x) :=
    (hframe.at_withLoop hloop).mp
  constructor
  · intro j x hx
    rw [hrun]
    rcases hcases hx with ⟨-, rfl⟩ | ⟨-, hx⟩
    · rw [hframe.generation]
      exact h.le i loop hloop
    · exact h.le j x hx
  · intro j k a b ha hb hgeneration
    rcases hcases ha with ⟨rfl, rfl⟩ | ⟨hij, ha⟩ <;> rcases hcases hb with ⟨rfl, rfl⟩ | ⟨hik, hb⟩
    · rfl
    · exact h.unique i k loop b hloop hb (hframe.generation ▸ hgeneration)
    · exact h.unique j i a loop ha hloop (hframe.generation ▸ hgeneration)
    · exact h.unique j k a b ha hb hgeneration
  · intro hv j x hx
    rw [hrun]
    have hvacant := (hframe.vacant_iff i).mp hv
    rcases hcases hx with ⟨-, rfl⟩ | ⟨-, hx⟩
    · rw [hframe.generation]
      exact h.vacant hvacant i loop hloop
    · exact h.vacant hvacant j x hx
  · intro j x hx hopen hdisposed
    rcases hcases hx with ⟨-, rfl⟩ | ⟨hij, hx⟩
    · exact h.held_self hframe hpipes hloop hopen hdisposed
    · exact h.held_other hframe hpipes hloop hij hx hopen hdisposed
  · intro j x hx hpc
    rw [hframe.live_iff]
    rcases hcases hx with ⟨-, rfl⟩ | ⟨-, hx⟩
    · rw [hframe.generation]
      exact h.setTrue_self heffect hloop hpc
    · exact h.setTrue j x hx hpc
  · intro j x exit hx hpc
    rw [hframe.live_iff, hconnected]
    rcases hcases hx with ⟨-, rfl⟩ | ⟨hij, hx⟩
    · rw [hframe.generation]
      exact Or.inl (Or.inl (heffect.setFalse_self hpc))
    · exact h.setFalse_step heffect hloop hij hx hpc fun hset =>
        hplaced loop hloop hset j x exit hx hpc
  · intro j x hx hpc
    rw [hframe.live_iff, hcontrol, hconnected]
    rcases hcases hx with ⟨-, rfl⟩ | ⟨hij, hx⟩
    · rw [hframe.generation]
      exact Or.inl (h.raiseTrue_self heffect hloop hpc)
    · exact h.raiseTrue_step heffect hloop hij hx hpc
  · intro hon
    rw [hframe.stopping_iff, hrun]
    refine (h.connected_step heffect hloop hon).imp_right ?_
    rintro (⟨hcurrent, hpc⟩ | ⟨j, x, hij, hx, hrest⟩)
    · exact ⟨i, loop', hframe.at_self hloop, hframe.generation.trans hcurrent, hpc⟩
    · exact ⟨j, x, hframe.at_other hloop hij hx, hrest⟩
  · intro hlast
    rw [hcontrol]
    refine (h.last_step heffect hloop hlast).imp_right fun hor => hor.imp_right ?_
    rintro (⟨exit, hpc⟩ | ⟨j, x, exit, hij, hx, hpc⟩)
    · exact ⟨i, loop', exit, hframe.at_self hloop, hpc⟩
    · exact ⟨j, x, exit, hframe.at_other hloop hij hx, hpc⟩

theorem step_loop_cases {i : Nat} {answer : PipeAnswer} (h : s.step (.loop i answer) = some t) :
    ∃ loop s' loop', s.At i loop ∧ s.loopStep loop answer = some (s', loop') ∧
      t = s'.withLoop i loop' := by
  simp only [PipeClient.step, Option.bind_eq_some_iff, Option.map_eq_some_iff] at h
  obtain ⟨loop, hloop, ⟨s', loop'⟩, hstep, rfl⟩ := h
  exact ⟨loop, s', loop', hloop, hstep, rfl⟩

theorem PipeInv.step (h : PipeInv s) {action : PipeAction} (hplaced : s.Placed action)
    (hstep : s.step action = some t) : PipeInv t := by
  cases action with
  | start =>
    simp only [PipeClient.step] at hstep
    split at hstep
    · rename_i hidle
      cases hstep
      exact h.start hidle
    · cases hstep
  | stop =>
    simp only [PipeClient.step] at hstep
    split at hstep
    · rename_i hidle
      cases hstep
      exact h.stop hidle
    · cases hstep
  | dispose =>
    simp only [PipeClient.step] at hstep
    split at hstep
    · rename_i hidle
      cases hstep
      exact h.dispose hidle
    · cases hstep
  | control => exact h.control hplaced hstep
  | loop i answer =>
    obtain ⟨loop, s', loop', hloop, hloopStep, rfl⟩ := step_loop_cases hstep
    exact h.loopStep hloop hplaced hloopStep
  | sendFailure =>
    cases hstep
    exact h.sendFailure

theorem pipeInv_initial (authenticates : Bool) : PipeInv { authenticates } := by
  have hnone : ∀ i loop, ¬ PipeClient.At { authenticates } i loop := fun i loop hloop => by
    cases i <;> cases hloop
  constructor
  · exact fun i loop hloop => absurd hloop (hnone i loop)
  · exact fun i _ a _ ha => absurd ha (hnone i a)
  · exact fun _ i loop hloop => absurd hloop (hnone i loop)
  · exact fun i loop hloop => absurd hloop (hnone i loop)
  · exact fun i loop hloop => absurd hloop (hnone i loop)
  · exact fun i loop _ hloop => absurd hloop (hnone i loop)
  · exact fun i loop hloop => absurd hloop (hnone i loop)
  · intro hconnected
    cases hconnected
  · intro hlast
    cases hlast

theorem pipeInv_of_run {authenticates : Bool}
    (hrun : Run PipeClient.step Placed { authenticates } s) :
    PipeInv s :=
  hrun.invariant (I := PipeInv) (pipeInv_initial authenticates) fun _ _ _ h hplaced hstep =>
    h.step hplaced hstep

/-! ## The connection state -/

/-- The run of an older loop does not go on. -/
theorem PipeInv.older_not_live (h : PipeInv s) {loop : ReadLoop} (holder : s.Older loop) :
    ¬ s.Live loop.generation := by
  obtain ⟨j, newer, hnewer, hlt⟩ := holder
  have hle := h.le j newer hnewer
  rintro (hcurrent | ⟨hlast, hstopping⟩)
  · omega
  · have hlt' := h.vacant (Or.inl hstopping) j newer hnewer
    omega

theorem PipeInv.older_step (h : PipeInv s) {i : Nat} {loop : ReadLoop} {answer : PipeAnswer}
    (hloop : s.At i loop) (holder : s.Older loop) (hstep : s.step (.loop i answer) = some t) :
    t.isConnected = s.isConnected := by
  obtain ⟨loop', s', after, hloop', hloopStep, rfl⟩ := step_loop_cases hstep
  have hsame : loop' = loop := Option.some.inj (hloop'.symm.trans hloop)
  subst hsame
  have hnot := h.older_not_live holder
  cases loopStep_effect hloopStep with
  | connects hset => exact absurd (h.setTrue i loop' hloop hset) hnot
  | announces _ hstate =>
    subst hstate
    rfl
  | disconnects hset hon =>
    rcases h.setFalse i loop' _ hloop hset with hlive | hoff
    · exact absurd hlive hnot
    · rw [hon] at hoff
      cases hoff
  | withdraws _ hstate =>
    subst hstate
    rfl
  | quiet hconnected => exact hconnected

theorem PipeInv.stopped (h : PipeInv s) (hstopped : s.Stopped) :
    s.isConnected = false ∧ s.events.getLast? ≠ some true := by
  obtain ⟨hidle, htask, hended⟩ := hstopped
  have hoff := h.disconnected (Or.inr (Or.inr (Or.inr ⟨hidle, htask⟩))) (not_stopping_idle hidle)
  refine ⟨hoff, fun hlast => ?_⟩
  rcases h.last hlast with hon | hraise | ⟨i, loop, exit, hloop, hpc⟩
  · rw [hoff] at hon
    cases hon
  · rw [hidle] at hraise
    cases hraise
  · rw [hended i loop hloop] at hpc
    cases hpc

/-- **In every run that meets the placement condition, a stopped client whose loops have ended is
disconnected and has last said so, and an older loop leaves the connection state alone.** -/
theorem connection_state {authenticates : Bool}
    (hrun : Run PipeClient.step Placed { authenticates } s) :
    (s.Stopped → s.isConnected = false ∧ s.events.getLast? ≠ some true) ∧
      ∀ i loop answer t, s.At i loop → s.Older loop → s.step (.loop i answer) = some t →
        t.isConnected = s.isConnected :=
  ⟨(pipeInv_of_run hrun).stopped, fun _ _ _ _ hloop holder hstep =>
    (pipeInv_of_run hrun).older_step hloop holder hstep⟩

/-- A loop connects: its first steps up to `SetConnectionState(true)`. -/
def opening (i : Nat) : List PipeAction :=
  [.loop i .ok, .loop i .ok, .loop i .ok, .loop i .ok, .loop i .ok]

/-- `Stop` with a connected pipe, up to `SetConnectionState(false)`. -/
def stopping : List PipeAction := [.stop, .control, .control, .control, .control]

def stoppedTest (s : PipeClient) : Bool :=
  decide (s.control = .idle) && decide (s.readTask = none) &&
    s.loops.all fun loop => decide (loop.pc = .ended)

theorem stopped_of_test (h : stoppedTest s = true) : s.Stopped := by
  simp only [stoppedTest, Bool.and_eq_true, decide_eq_true_eq, List.all_eq_true] at h
  exact ⟨h.1.1, h.1.2, fun i loop hloop => h.2 loop (List.mem_of_getElem? hloop)⟩

/-- The checks of `Placed`, over the loops that exist. -/
def placedTest (s : PipeClient) : PipeAction → Bool
  | .control =>
    (decide (s.control ≠ .setFalse) || s.loops.all fun loop => decide (loop.pc ≠ .setTrue)) &&
      (decide (s.control ≠ .raiseFalse) || s.loops.all fun loop => decide (loop.pc ≠ .raiseTrue))
  | .loop i _ =>
    s.loops[i]?.all fun loop => decide (loop.pc ≠ .setTrue) ||
      s.loops.all fun other => decide (loop.generation ≤ other.generation)
  | _ => true

theorem placed_of_test {action : PipeAction}
    (h : placedTest s action = true) : s.Placed action := by
  cases action with
  | control =>
    simp only [placedTest, Bool.and_eq_true, Bool.or_eq_true, decide_eq_true_eq,
      List.all_eq_true] at h
    refine ⟨fun hcontrol i loop hloop => ?_, fun hcontrol i loop hloop => ?_⟩
    · exact h.1.resolve_left (not_not_intro hcontrol) loop (List.mem_of_getElem? hloop)
    · exact h.2.resolve_left (not_not_intro hcontrol) loop (List.mem_of_getElem? hloop)
  | loop i answer =>
    intro loop hloop hpc j other exit hother hset
    have hloop' : s.loops[i]? = some loop := hloop
    simp only [placedTest, hloop', Option.all_some, Bool.or_eq_true, decide_eq_true_eq,
      List.all_eq_true] at h
    exact h.resolve_left (not_not_intro hpc) other (List.mem_of_getElem? hother)
  | _ => trivial

/-- A connection that the server closes, and `Stop` in the next round. -/
theorem connection_state_closed :
    ∃ s, Run PipeClient.step Placed { authenticates := false } s ∧ s.Stopped ∧
      s.events = [true, false] ∧ s.isConnected = false := by
  obtain ⟨s, hrun, htest⟩ := Run.exists_of_exec PipeClient.step (P := Placed) placedTest
    (fun s => stoppedTest s && decide (s.events = [true, false]))
    { authenticates := false }
    ([.start, .control] ++ opening 0 ++ [.loop 0 .ok, .loop 0 .ok, .loop 0 .closed, .loop 0 .ok,
      .loop 0 .ok, .loop 0 .ok, .loop 0 .ok, .loop 0 .ok] ++ stopping ++ [.loop 0 .ok])
    (fun _ _ => placed_of_test) (by decide)
  rw [Bool.and_eq_true, decide_eq_true_eq] at htest
  have hstopped := stopped_of_test htest.1
  exact ⟨s, hrun, hstopped, htest.2, ((connection_state hrun).1 hstopped).1⟩

/-- `Stop` sets the state before the loop does. -/
theorem connected_after_stop :
    ∃ s, Run PipeClient.step (fun _ _ => True) { authenticates := false } s ∧ s.Stopped ∧
      s.isConnected = true ∧ s.events = [true] := by
  obtain ⟨s, hrun, htest⟩ := Run.exists_of_exec PipeClient.step (P := fun _ _ => True)
    (fun _ _ => true)
    (fun s => stoppedTest s && (s.isConnected && decide (s.events = [true])))
    { authenticates := false }
    ([.start, .control] ++ opening 0 ++ stopping ++ [.control, .loop 0 .ok, .loop 0 .ok,
      .loop 0 (.throws .operationCanceled), .loop 0 .ok, .loop 0 .ok])
    (fun _ _ _ => trivial) (by decide)
  simp only [Bool.and_eq_true, decide_eq_true_eq] at htest
  exact ⟨s, hrun, stopped_of_test htest.1, htest.2.1, htest.2.2⟩

/-- `Stop` raises its event before the loop does. -/
theorem raised_after_stop :
    ∃ s, Run PipeClient.step (fun _ _ => True) { authenticates := false } s ∧ s.Stopped ∧
      s.isConnected = false ∧ s.events = [false, true] := by
  obtain ⟨s, hrun, htest⟩ := Run.exists_of_exec PipeClient.step (P := fun _ _ => True)
    (fun _ _ => true)
    (fun s => stoppedTest s && (!s.isConnected && decide (s.events = [false, true])))
    { authenticates := false }
    ([.start, .control] ++ opening 0 ++ [.loop 0 .ok] ++ stopping ++ [.control, .control,
      .loop 0 .ok, .loop 0 (.throws .operationCanceled), .loop 0 .ok, .loop 0 .ok])
    (fun _ _ _ => trivial) (by decide)
  simp only [Bool.and_eq_true, Bool.not_eq_true', decide_eq_true_eq] at htest
  exact ⟨s, hrun, stopped_of_test htest.1, htest.2.1, htest.2.2⟩

/-- A loop passes its generation check, `Stop` and a new connection come, and it disconnects. -/
theorem older_loop_disconnects :
    ∃ s t loop, Run PipeClient.step (fun _ _ => True) { authenticates := false } s ∧
      s.At 0 loop ∧ s.Older loop ∧ s.step (.loop 0 .ok) = some t ∧ s.isConnected = true ∧
      t.isConnected = false := by
  obtain ⟨s, hrun, htest⟩ := Run.exists_of_exec PipeClient.step (P := fun _ _ => True)
    (fun _ _ => true)
    (fun s => s.isConnected && decide (s.loops.map (fun loop => (loop.generation, loop.pc)) =
      [(1, .setFalse .pause), (3, .read)]))
    { authenticates := false }
    ([.start, .control] ++ opening 0 ++ [.loop 0 .ok, .loop 0 .ok, .loop 0 .closed, .loop 0 .ok,
      .loop 0 .ok, .stop, .control, .control, .control, .control, .control, .start, .control] ++
      opening 1 ++ [.loop 1 .ok, .loop 1 .ok])
    (fun _ _ _ => trivial) (by decide)
  rw [Bool.and_eq_true, decide_eq_true_eq] at htest
  obtain ⟨hon, hloops⟩ := htest
  obtain ⟨old, rest, hlist, hpair, hrest⟩ := List.map_eq_cons_iff.mp hloops
  obtain ⟨newer, rest, rfl, hpair', -⟩ := List.map_eq_cons_iff.mp hrest
  obtain ⟨hgeneration, hpc⟩ := Prod.mk.inj hpair
  have hgeneration' := (Prod.mk.inj hpair').1
  have hold : s.loops[0]? = some old := by rw [hlist]; rfl
  have hnewer : s.At 1 newer := by rw [At, hlist]; rfl
  refine ⟨s, withLoop { s with isConnected := false } 0 { old with pc := .raiseFalse .pause }, old,
    hrun, hold, ⟨1, newer, hnewer, by omega⟩, ?_, hon, rfl⟩
  rw [PipeClient.step, hold, Option.bind_some, PipeClient.loopStep, hpc]
  simp only [hon, if_true, Option.map_some]
  rfl

end PipeClient

end LocalMediaTransfer
