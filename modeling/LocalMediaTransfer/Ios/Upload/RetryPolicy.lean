import LocalMediaTransfer.Ios.Upload.Types
import LocalMediaTransfer.Lib.Run

/-!
# Retrying a chunk request

`retryChunkRequest` (`upload/RetryPolicy.ts`) as the calls of one `UploadManager`: any number of
calls share its cancel flag and its set of active requests, and the outcomes of the requests, the
timers and `cancel` come in any order.  A call keeps a log of what has happened to it.

* `RetrySystem.step` — the synchronous parts of a call between its awaits, and the manager's own
  steps.
* `sound_run` — what the log of a call says about its attempts, and who owns which controller.
* `retry_policy` — **attempts, stops, the result, the timeout failure and the ownership of
  controllers**, in every run.
-/

set_option autoImplicit false

namespace LocalMediaTransfer

open Lib

variable {T : Type}

/-- How a call ends. -/
inductive RetryResult (T : Type) where
  | returned (value : T)
  | threw (error : RunError)
  deriving DecidableEq

/-- Where a call is suspended. -/
inductive RetryPhase (T : Type) where
  /-- `await request(controller.signal)`. -/
  | requesting (controller : Nat)
  /-- `await new Promise(...)` in the `catch` clause. -/
  | backoff (controller : Nat)
  | done (result : RetryResult T)
  deriving DecidableEq

/-- What has happened to a call. -/
inductive RetryEvent (T : Type) where
  | started (controller : Nat)
  | settled (controller : Nat) (outcome : Except RunError T)
  | timedOut (controller : Nat)
  /-- `isCancelled()` answered `true`. -/
  | sawCancel
  /-- `cancel` ran while the call was suspended. -/
  | cancelled

structure RetryCall (T : Type) where
  retries : Nat
  attempt : Nat
  phase : RetryPhase T
  log : List (RetryEvent T)

def RetryCall.note (call : RetryCall T) (event : RetryEvent T) : RetryCall T :=
  { call with log := call.log ++ [event] }

/-- `cancel` reaches a call that is not over. -/
def RetryCall.cancel (call : RetryCall T) : RetryCall T :=
  match call.phase with
  | .done _ => call
  | _ => call.note .cancelled

/-- The manager and its calls.  Controllers are numbered as they are made; `aborted` is
`signal.aborted`, and `timers` are the controllers whose timeout is set. -/
structure RetrySystem (T : Type) where
  isCancelled : Bool := false
  activeRequests : Finset Nat := ∅
  aborted : Nat → Bool := fun _ => false
  timers : Finset Nat := ∅
  nextController : Nat := 0
  calls : Nat → Option (RetryCall T) := fun _ => none

/-- `new TransferFailure('network', 'request-timeout')`. -/
def requestTimeout : RunError := .failure ⟨.network, .requestTimeout, false⟩

/-- `error instanceof TransferFailure`. -/
def isTransferFailure : RunError → Bool
  | .failure _ => true
  | _ => false

namespace RetrySystem

def setCall (s : RetrySystem T) (k : Nat) (call : RetryCall T) : RetrySystem T :=
  { s with calls := Function.update s.calls k (some call) }

/-- The `finally` clause. -/
def release (s : RetrySystem T) (controller : Nat) : RetrySystem T :=
  { s with timers := s.timers.erase controller, activeRequests :=
    s.activeRequests.erase controller }

def finish (s : RetrySystem T) (k : Nat) (call : RetryCall T) (controller : Nat)
    (result : RetryResult T) : RetrySystem T :=
  (s.release controller).setCall k { call with phase := .done result }

/-- The `catch` clause; `isCancelled()` is not asked when the attempts are used up and the signal is
not aborted. -/
def catchError (s : RetrySystem T) (k : Nat) (call : RetryCall T) (controller : Nat)
    (error : RunError) : RetrySystem T :=
  if isUnauthorizedError error then s.finish k call controller (.threw error)
  else
    let call :=
      if s.isCancelled ∧ (call.attempt <
        call.retries ∨ s.aborted controller) then call.note .sawCancel
      else call
    if call.retries ≤ call.attempt ∨ s.isCancelled ∨ isTransferFailure error then
      s.finish k call controller
        (.threw (if s.aborted controller ∧ ¬s.isCancelled then requestTimeout else error))
    else
      s.setCall k { call with attempt := call.attempt + 1, phase := .backoff controller }

/-- The `try` clause up to the request. -/
def tryRequest (s : RetrySystem T) (k retries attempt : Nat) (log : List (RetryEvent T)) :
    RetrySystem T :=
  let controller := s.nextController
  let call : RetryCall T := ⟨retries, attempt, .requesting controller, log⟩
  let s := { s with nextController := controller + 1 }
  if s.isCancelled then
    s.catchError k (call.note .sawCancel) controller (.failure ⟨.upload, .cancelled, false⟩)
  else
    { s with
      activeRequests := insert controller s.activeRequests
      timers := insert controller s.timers }.setCall k (call.note (.started controller))

inductive Label (T : Type) where
  | call (k retries : Nat)
  /-- The request of a call settles. -/
  | settle (k : Nat) (outcome : Except RunError T)
  /-- The timeout of a call fires. -/
  | timeout (k : Nat)
  /-- The backoff of a call ends. -/
  | wake (k : Nat)
  /-- `UploadManager.cancel`. -/
  | cancel
  /-- The start of an upload: the flag is reset and the set cleared. -/
  | restart
  /-- The end of an upload: the set is cleared. -/
  | clear

def step (s : RetrySystem T) : Label T → Option (RetrySystem T)
  | .call k retries =>
      match s.calls k with
      | none => some (s.tryRequest k retries 0 [])
      | some _ => none
  | .settle k outcome =>
      match s.calls k with
      | some ⟨retries, attempt, .requesting controller, log⟩ =>
          let call : RetryCall T :=
            ⟨retries, attempt, .requesting controller, log ++ [.settled controller outcome]⟩
          match outcome with
          | .ok value => some (s.finish k call controller (.returned value))
          | .error error => some (s.catchError k call controller error)
      | _ => none
  | .timeout k =>
      match s.calls k with
      | some call =>
          match call.phase with
          | .requesting controller | .backoff controller =>
              if controller ∈ s.timers then
                some ({ s with
                  timers := s.timers.erase controller
                  aborted := Function.update s.aborted controller true }.setCall k
                    (call.note (.timedOut controller)))
              else none
          | .done _ => none
      | none => none
  | .wake k =>
      match s.calls k with
      | some ⟨retries, attempt, .backoff controller, log⟩ =>
          some ((s.release controller).tryRequest k retries attempt log)
      | _ => none
  | .cancel =>
      some { s with
        isCancelled := true
        aborted := fun controller => s.aborted controller || decide (controller ∈ s.activeRequests)
        activeRequests := ∅
        calls := fun k => (s.calls k).map RetryCall.cancel }
  | .restart => some { s with isCancelled := false, activeRequests := ∅ }
  | .clear => some { s with activeRequests := ∅ }

end RetrySystem

/-! ## What a call's log says -/

/-- The controller a suspended call works with. -/
def RetryPhase.controller? : RetryPhase T → Option Nat
  | .requesting controller | .backoff controller => some controller
  | .done _ => none

/-- The attempts that a call has made. -/
def attempts (log : List (RetryEvent T)) : Nat := log.countP (· matches .started _)

/-- What forbids another attempt: a cancel that was seen, an authorization error, a
`TransferFailure`, a success. -/
def RetryEvent.Stops : RetryEvent T → Prop
  | .sawCancel => True
  | .settled _ (.ok _) => True
  | .settled _ (.error error) => isUnauthorizedError error = true ∨ isTransferFailure error = true
  | _ => False

/-- No cancel has reached the call. -/
def Uncancelled (log : List (RetryEvent T)) : Prop := .cancelled ∉ log ∧ .sawCancel ∉ log

/-- The log of a call against its phase. -/
structure RetryCall.Sound (call : RetryCall T) : Prop where
  current : ∀ c, call.phase.controller? = some c → .started c ∈ call.log
  attempts_eq : match call.phase with
    | .requesting _ => attempts call.log = call.attempt + 1 ∧ call.attempt ≤ call.retries
    | .backoff _ => attempts call.log = call.attempt ∧ call.attempt ≤ call.retries
    | .done _ => attempts call.log ≤ call.retries + 1
  stops : ∀ event ∈ call.log, event.Stops → ∃ result, call.phase = .done result
  returned : ∀ value, call.phase = .done (.returned value) ↔ ∃ c, .settled c (.ok value) ∈ call.log
  timedOut : ∀ result, call.phase = .done result → Uncancelled call.log →
    ∃ c outcome, call.log.getLast? = some (.settled c outcome) ∧ ∀ error, outcome = .error error →
      isUnauthorizedError error = false → .timedOut c ∈ call.log → result = .threw requestTimeout

/-- A suspended call that no cancel has reached finds the flag down. -/
def RetryCall.Undisturbed (s : RetrySystem T) (call : RetryCall T) : Prop :=
  ∀ c, call.phase.controller? = some c → Uncancelled call.log → s.isCancelled = false

/-- The calls and the controllers of the manager. -/
structure RetrySystem.Sound (s : RetrySystem T) : Prop where
  calls : ∀ k call, s.calls k = some call → call.Sound ∧ call.Undisturbed s
  started_lt : ∀ k call c, s.calls k = some call → .started c ∈ call.log → c < s.nextController
  aborted_of_timedOut : ∀ k call c, s.calls k = some call → .timedOut c ∈ call.log →
    s.aborted c = true
  distinct : ∀ k k' call call' c, s.calls k = some call → s.calls k' = some call' →
    .started c ∈ call.log → .started c ∈ call'.log → k = k'
  owned : ∀ c ∈ s.activeRequests, ∃ k call, s.calls k = some call ∧ call.phase.controller? = some c

/-! ## Steps of one call -/

namespace RetrySystem

variable {s s' : RetrySystem T} {k controller : Nat} {call call' : RetryCall T} {error : RunError}

theorem sound_init : ({} : RetrySystem T).Sound where
  calls := fun k call h => by cases h
  started_lt := fun k call c h => by cases h
  aborted_of_timedOut := fun k call c h => by cases h
  distinct := fun k k' call call' c h => by cases h
  owned := fun c h => absurd h (Finset.notMem_empty c)

/-- A step that replaces one call: its controllers are its own or new. -/
theorem sound_update (hs : s.Sound) (hcalls : s'.calls = Function.update s.calls k (some call'))
    (hflag : s'.isCancelled = s.isCancelled) (hnext : s.nextController ≤ s'.nextController)
    (haborted : ∀ c, s.aborted c = true → s'.aborted c = true)
    (htimedOut : ∀ c, .timedOut c ∈ call'.log → s'.aborted c = true)
    (hsound : call'.Sound ∧ call'.Undisturbed s')
    (hstarted : ∀ c, .started c ∈ call'.log →
      (∃ call, s.calls k = some call ∧ .started c ∈ call.log) ∨
        s.nextController ≤ c ∧ c < s'.nextController)
    (howned : ∀ c ∈ s'.activeRequests, call'.phase.controller? = some c ∨
      c ∈ s.activeRequests ∧ ∀ call, s.calls k = some call → call.phase.controller? ≠ some c) :
    s'.Sound := by
  have hself : s'.calls k = some call' := by rw [hcalls, Function.update_self]
  have hother : ∀ j, j ≠ k → s'.calls j = s.calls j := by
    intro j hj
    rw [hcalls, Function.update_of_ne hj]
  have hforeign : ∀ j call c, j ≠ k → s.calls j = some call → .started c ∈ call.log →
      .started c ∉ call'.log := by
    intro j call c hj hcall hc hc'
    rcases hstarted c hc' with ⟨old, hold, hin⟩ | ⟨hle, -⟩
    · exact hj (hs.distinct j k call old c hcall hold hc hin)
    · exact absurd (hs.started_lt j call c hcall hc) (Nat.not_lt.mpr hle)
  constructor
  · intro j call hcall
    by_cases hj : j = k
    · subst hj
      rw [hself, Option.some.injEq] at hcall
      exact hcall ▸ hsound
    · rw [hother j hj] at hcall
      obtain ⟨hcallSound, hcalm⟩ := hs.calls j call hcall
      exact ⟨hcallSound, fun c hc huncancelled => hflag.trans (hcalm c hc huncancelled)⟩
  · intro j call c hcall hc
    by_cases hj : j = k
    · subst hj
      rw [hself, Option.some.injEq] at hcall
      subst hcall
      rcases hstarted c hc with ⟨old, hold, hin⟩ | ⟨-, hlt⟩
      · exact (hs.started_lt j old c hold hin).trans_le hnext
      · exact hlt
    · rw [hother j hj] at hcall
      exact (hs.started_lt j call c hcall hc).trans_le hnext
  · intro j call c hcall hc
    by_cases hj : j = k
    · subst hj
      rw [hself, Option.some.injEq] at hcall
      exact htimedOut c (hcall ▸ hc)
    · rw [hother j hj] at hcall
      exact haborted c (hs.aborted_of_timedOut j call c hcall hc)
  · intro i j first second c hi hj hc hc'
    by_cases hik : i = k
    · by_cases hjk : j = k
      · rw [hik, hjk]
      · subst hik
        rw [hself, Option.some.injEq] at hi
        rw [hother j hjk] at hj
        exact absurd (hi ▸ hc) (hforeign j second c hjk hj hc')
    · rw [hother i hik] at hi
      by_cases hjk : j = k
      · subst hjk
        rw [hself, Option.some.injEq] at hj
        exact absurd (hj ▸ hc') (hforeign i first c hik hi hc)
      · rw [hother j hjk] at hj
        exact hs.distinct i j first second c hi hj hc hc'
  · intro c hc
    rcases howned c hc with hnow | ⟨hold, hnot⟩
    · exact ⟨k, call', hself, hnow⟩
    · obtain ⟨j, call, hcall, hcontroller⟩ := hs.owned c hold
      have hj : j ≠ k := by
        rintro rfl
        exact hnot call hcall hcontroller
      exact ⟨j, call, by rw [hother j hj, hcall], hcontroller⟩

theorem sound_release (hs : s.Sound) : (s.release controller).Sound where
  calls := hs.calls
  started_lt := hs.started_lt
  aborted_of_timedOut := hs.aborted_of_timedOut
  distinct := hs.distinct
  owned := fun c hc => hs.owned c (Finset.mem_of_mem_erase hc)

theorem sound_next (hs : s.Sound) : ({ s with nextController := s.nextController + 1 }).Sound where
  calls := hs.calls
  started_lt := fun k call c hcall hc => Nat.lt_succ_of_lt (hs.started_lt k call c hcall hc)
  aborted_of_timedOut := hs.aborted_of_timedOut
  distinct := hs.distinct
  owned := hs.owned

/-- The log of a call that is running between two awaits against the call as it was suspended. -/
def Known (s : RetrySystem T) (k : Nat) (log : List (RetryEvent T)) : Prop :=
  ∀ c, (.started c ∈ log → ∃ call, s.calls k = some call ∧ .started c ∈ call.log) ∧
    (.timedOut c ∈ log → ∃ call, s.calls k = some call ∧ .timedOut c ∈ call.log)

theorem Known.aborted (hs : s.Sound) {log : List (RetryEvent T)} (h : Known s k log) {c : Nat}
    (hc : .timedOut c ∈ log) : s.aborted c = true := by
  obtain ⟨call, hcall, hin⟩ := (h c).2 hc
  exact hs.aborted_of_timedOut k call c hcall hin

/-- The call does not hold another controller than the given one. -/
def Holds (s : RetrySystem T) (k controller : Nat) : Prop :=
  ∀ c ∈ s.activeRequests, c ≠ controller → ∀ call, s.calls k = some call →
    call.phase.controller? ≠ some c

/-- The end of a call. -/
theorem sound_finish {result : RetryResult T} (hs : s.Sound) (hknown : Known s k call.log)
    (hholds : Holds s k controller) (hattempts : attempts call.log ≤ call.retries + 1)
    (hreturned : ∀ value, result = .returned value ↔ ∃ c, .settled c (.ok value) ∈ call.log)
    (htimedOut : Uncancelled call.log → ∃ c outcome, call.log.getLast? = some (.settled c outcome) ∧
      ∀ error, outcome = .error error → isUnauthorizedError error = false →
        .timedOut c ∈ call.log → result = .threw requestTimeout) :
    (s.finish k call controller result).Sound := by
  refine sound_update hs rfl rfl le_rfl (fun _ => id) (fun _ => hknown.aborted hs)
    ⟨⟨?_, hattempts, ?_, ?_, ?_⟩, ?_⟩ (fun c hc => .inl ((hknown c).1 hc)) ?_
  · intro c hc
    cases hc
  · exact fun event _ _ => ⟨result, rfl⟩
  · intro value
    rw [RetryPhase.done.injEq]
    exact hreturned value
  · rintro result' hresult huncancelled
    cases hresult
    exact htimedOut huncancelled
  · intro c hc
    cases hc
  · intro c hc
    obtain ⟨hne, hc⟩ := Finset.mem_erase.mp hc
    exact .inr ⟨hc, hholds c hc hne⟩

/-- How the `catch` clause goes on. -/
theorem catchError_cases (s : RetrySystem T) (k : Nat) (call : RetryCall T) (controller : Nat)
    (error : RunError) :
    (∃ log error', s.catchError k call controller error =
        s.finish k { call with log := log } controller (.threw error') ∧
      (log = call.log ∨ log = call.log ++ [.sawCancel]) ∧
      (isUnauthorizedError error = false → s.aborted controller = true → s.isCancelled = false →
        error' = requestTimeout)) ∨
      (isUnauthorizedError error = false ∧ isTransferFailure error = false ∧ s.isCancelled = false ∧
        call.attempt < call.retries ∧ s.catchError k call controller error =
          s.setCall k { call with attempt := call.attempt + 1, phase := .backoff controller }) := by
  unfold catchError
  cases hunauthorized : isUnauthorizedError error with
  | true => exact .inl ⟨call.log, error, rfl, .inl rfl, fun h => by cases h⟩
  | false =>
    simp only [Bool.false_eq_true, if_false]
    by_cases hlook : s.isCancelled = true ∧
      (call.attempt < call.retries ∨ s.aborted controller = true)
    · left
      rw [if_pos hlook, if_pos (.inr (.inl hlook.1))]
      refine ⟨_, _, rfl, .inr rfl, fun _ _ hflag => ?_⟩
      rw [hlook.1] at hflag
      cases hflag
    · rw [if_neg hlook]
      by_cases hend : call.retries ≤ call.attempt ∨ s.isCancelled = true ∨
        isTransferFailure error = true
      · left
        rw [if_pos hend]
        refine ⟨call.log, _, rfl, .inl rfl, fun _ haborted hflag => ?_⟩
        rw [if_pos ⟨haborted, by simp [hflag]⟩]
      · right
        rw [if_neg hend]
        simp only [not_or, Bool.not_eq_true] at hend
        exact ⟨trivial, hend.2.2, hend.2.1, by omega, rfl⟩

variable {retries attempt : Nat} {log : List (RetryEvent T)}

theorem attempts_append (log : List (RetryEvent T)) (event : RetryEvent T) :
    attempts (log ++ [event]) = attempts log + if event matches .started _ then 1 else 0 := by
  simp [attempts, List.countP_append, List.countP_singleton]

theorem uncancelled_append {event : RetryEvent T} (h : Uncancelled (log ++ [event])) :
    Uncancelled log := by
  simp only [Uncancelled, List.mem_append, not_or] at h
  exact ⟨h.1.1, h.2.1⟩

/-- A call that may try again: nothing in its log stops it. -/
structure Ready (s : RetrySystem T) (k retries attempt : Nat)
    (log : List (RetryEvent T)) : Prop where
  known : Known s k log
  holds : ∀ c ∈ s.activeRequests, ∀ call, s.calls k = some call → call.phase.controller? ≠ some c
  attempts_eq : attempts log = attempt
  attempt_le : attempt ≤ retries
  unstopped : ∀ event ∈ log, ¬event.Stops

/-- The next attempt, or the end of the call when the flag is up. -/
theorem sound_tryRequest (hs : s.Sound) (hready : Ready s k retries attempt log) :
    (s.tryRequest k retries attempt log).Sound := by
  obtain ⟨hknown, hholds, hattempts, hle, hunstopped⟩ := hready
  unfold tryRequest
  dsimp only
  split
  · rename_i hflag
    -- the flag is seen before the request, and the `catch` clause ends the call
    rcases catchError_cases { s with nextController := s.nextController + 1 } k
      (RetryCall.note ⟨retries, attempt, .requesting s.nextController, log⟩ .sawCancel)
      s.nextController (.failure ⟨.upload, .cancelled, false⟩) with
      ⟨log', error', heq, hlog, -⟩ | ⟨-, -, hdown, -⟩
    · rw [heq]
      have hsaw : .sawCancel ∈ log' := by
        rcases hlog with rfl | rfl <;> simp [RetryCall.note]
      have hsub : ∀ event ∈ log', event ∈ log ∨ event = .sawCancel := by
        rcases hlog with rfl | rfl <;> simp [RetryCall.note]
      refine sound_finish (sound_next hs) ?_ (fun c hc _ => hholds c hc) ?_ ?_ ?_
      · intro c
        exact ⟨fun hc => (hknown c).1 ((hsub _ hc).resolve_right (fun h => by cases h)),
          fun hc => (hknown c).2 ((hsub _ hc).resolve_right (fun h => by cases h))⟩
      · have hcount : attempts log' = attempts log := by
          rcases hlog with rfl | rfl <;> simp [RetryCall.note, attempts, List.countP_append]
        simp only [RetryCall.note]
        omega
      · intro value
        constructor
        · intro h
          cases h
        · rintro ⟨c, hc⟩
          exact absurd trivial (hunstopped _ ((hsub _ hc).resolve_right (fun h => by cases h)))
      · exact fun huncancelled => absurd hsaw huncancelled.2
    · exact absurd (hflag.symm.trans hdown) (by decide)
  · rename_i hflag
    refine sound_update hs rfl rfl (Nat.le_succ _) (fun _ => id) ?_ ⟨⟨?_, ?_, ?_, ?_, ?_⟩, ?_⟩ ?_ ?_
    · intro c hc
      rcases List.mem_append.mp hc with hc | hc
      · exact hknown.aborted hs hc
      · cases List.mem_singleton.mp hc
    · rintro c hc
      cases hc
      simp [RetryCall.note]
    · simp only [RetryCall.note, attempts_append, hattempts]
      exact ⟨rfl, hle⟩
    · intro event hevent hstops
      rcases List.mem_append.mp hevent with hevent | hevent
      · exact absurd hstops (hunstopped event hevent)
      · rw [List.mem_singleton.mp hevent] at hstops
        exact hstops.elim
    · intro value
      constructor
      · intro h
        cases h
      · rintro ⟨c, hc⟩
        rcases List.mem_append.mp hc with hc | hc
        · exact absurd trivial (hunstopped _ hc)
        · cases List.mem_singleton.mp hc
    · intro result h
      cases h
    · rintro c - -
      exact Bool.not_eq_true _ ▸ hflag
    · intro c hc
      rcases List.mem_append.mp hc with hc | hc
      · exact .inl ((hknown c).1 hc)
      · cases List.mem_singleton.mp hc
        exact .inr ⟨le_rfl, Nat.lt_succ_self _⟩
    · intro c hc
      rcases Finset.mem_insert.mp hc with rfl | hc
      · exact .inl rfl
      · exact .inr ⟨hc, hholds c hc⟩

/-- A suspended call holds the controller it works with and no other. -/
theorem holds_of_controller (hcall : s.calls k = some call)
    (hcontroller : call.phase.controller? = some controller) : Holds s k controller := by
  intro c _ hne call' hcall' hc
  obtain rfl : call = call' := by simpa [hcall] using hcall'
  rw [hcontroller, Option.some.injEq] at hc
  exact hne hc.symm

theorem known_of_log (hcall : s.calls k = some call) {event : RetryEvent T}
    (hstarted : ∀ c, event ≠ .started c) (htimedOut : ∀ c, event ≠ .timedOut c) :
    Known s k (call.log ++ [event]) := by
  intro c
  constructor
  · intro hc
    rcases List.mem_append.mp hc with hc | hc
    · exact ⟨call, hcall, hc⟩
    · exact absurd (List.mem_singleton.mp hc).symm (hstarted c)
  · intro hc
    rcases List.mem_append.mp hc with hc | hc
    · exact ⟨call, hcall, hc⟩
    · exact absurd (List.mem_singleton.mp hc).symm (htimedOut c)

/-- A call that is not over has seen nothing that stops it. -/
theorem unstopped_of_controller (hcall : call.Sound)
    (hcontroller : call.phase.controller? = some controller) :
    ∀ event ∈ call.log, ¬event.Stops := by
  intro event hevent hstops
  obtain ⟨result, hdone⟩ := hcall.stops event hevent hstops
  rw [hdone] at hcontroller
  cases hcontroller

/-- The request has returned a value. -/
theorem sound_settle_ok {value : T} (hs : s.Sound)
    (hcall : s.calls k = some ⟨retries, attempt, .requesting controller, log⟩) :
    (s.finish k ⟨retries, attempt, .requesting controller, log ++ [.settled controller (.ok value)]⟩
      controller (.returned value)).Sound := by
  have hold := (hs.calls k _ hcall).1
  refine sound_finish hs ?_ (holds_of_controller hcall rfl) ?_ ?_ ?_
  · exact known_of_log hcall (fun c h => by cases h) (fun c h => by cases h)
  · have hcount := hold.attempts_eq
    simp only [attempts_append] at hcount ⊢
    simp only [Bool.false_eq_true, if_false]
    omega
  · intro other
    constructor
    · intro h
      cases h
      exact ⟨controller, by simp⟩
    · rintro ⟨c, hc⟩
      rcases List.mem_append.mp hc with hc | hc
      · exact absurd trivial (unstopped_of_controller hold rfl _ hc)
      · cases List.mem_singleton.mp hc
        rfl
  · refine fun _ => ⟨controller, .ok value, by simp, fun error h => by cases h⟩

/-- The request has failed. -/
theorem sound_settle_error (hs : s.Sound)
    (hcall : s.calls k = some ⟨retries, attempt, .requesting controller, log⟩) :
    (s.catchError k ⟨retries, attempt, .requesting controller,
      log ++ [.settled controller (.error error)]⟩ controller error).Sound := by
  obtain ⟨hold, hcalm⟩ := hs.calls k _ hcall
  obtain ⟨hcount, hle⟩ := hold.attempts_eq
  have hunstopped := unstopped_of_controller hold rfl
  have hknown : Known s k (log ++ [.settled controller (.error error)]) :=
    known_of_log hcall (fun c h => by cases h) (fun c h => by cases h)
  have hfailed : ∀ c value, .settled c
    (.ok value) ∉ log ++ [.settled controller (.error error)] := by
    intro c value hc
    rcases List.mem_append.mp hc with hc | hc
    · exact hunstopped _ hc trivial
    · cases List.mem_singleton.mp hc
  rcases catchError_cases s k ⟨retries, attempt, .requesting controller,
    log ++ [.settled controller (.error error)]⟩ controller error with
    ⟨log', error', heq, hlog, herror⟩ | ⟨hunauthorized, htransfer, hflag, hlt, heq⟩
  · rw [heq]
    have hsub : ∀ event ∈ log', event ∈ log ++ [.settled controller (.error error)] ∨
        event = .sawCancel := by
      rcases hlog with rfl | rfl
      · exact fun event h => .inl h
      · exact fun event h => (List.mem_append.mp h).imp id List.mem_singleton.mp
    refine sound_finish hs ?_ (holds_of_controller hcall rfl) ?_ ?_ ?_
    · intro c
      exact ⟨fun hc => (hknown c).1 ((hsub _ hc).resolve_right (fun h => by cases h)),
        fun hc => (hknown c).2 ((hsub _ hc).resolve_right (fun h => by cases h))⟩
    · have hsame : attempts log' = attempts log := by
        rcases hlog with rfl | rfl <;> simp [attempts, List.countP_append]
      rw [hsame, hcount]
      simpa using hle
    · intro value
      constructor
      · intro h
        cases h
      · rintro ⟨c, hc⟩
        exact absurd ((hsub _ hc).resolve_right (fun h => by cases h)) (hfailed c value)
    · intro huncancelled
      -- no cancel was seen, so the log ends with the failure
      obtain rfl : log' = log ++ [.settled controller (.error error)] := by
        rcases hlog with rfl | rfl
        · rfl
        · exact absurd (by simp) huncancelled.2
      refine ⟨controller, .error error, by simp, fun thrown hthrown hunauthorized htimedOut => ?_⟩
      cases hthrown
      rw [herror hunauthorized (hknown.aborted hs htimedOut)
        (hcalm controller rfl (uncancelled_append huncancelled))]
  · rw [heq]
    have htimedOut : ∀ c, .timedOut c ∈ log ++ [.settled controller (.error error)] →
        s.aborted c = true := fun c => hknown.aborted hs
    refine sound_update hs rfl rfl le_rfl (fun _ => id) htimedOut ⟨⟨?_, ?_, ?_, ?_, ?_⟩, ?_⟩
      (fun c hc => .inl ((hknown c).1 hc)) ?_
    · intro c hc
      exact List.mem_append_left _ (hold.current c hc)
    · simp only [attempts_append]
      simp only [Bool.false_eq_true, if_false]
      exact ⟨hcount, hlt⟩
    · intro event hevent hstops
      rcases List.mem_append.mp hevent with hevent | hevent
      · exact absurd hstops (hunstopped event hevent)
      · rw [List.mem_singleton.mp hevent] at hstops
        rcases hstops with h | h
        · rw [hunauthorized] at h
          cases h
        · rw [htransfer] at h
          cases h
    · intro value
      constructor
      · intro h
        cases h
      · rintro ⟨c, hc⟩
        exact absurd hc (hfailed c value)
    · intro result h
      cases h
    · exact fun c _ _ => hflag
    · intro c hc
      by_cases hcurrent : c = controller
      · exact .inl (by rw [hcurrent]; rfl)
      · exact .inr ⟨hc, holds_of_controller hcall rfl c hc hcurrent⟩

/-- A timeout fires while the call is suspended. -/
theorem sound_timeout (hs : s.Sound) (hcall : s.calls k = some call)
    (hcontroller : call.phase.controller? = some controller) :
    ({ s with
      timers := s.timers.erase controller
      aborted := Function.update s.aborted controller true }.setCall k
        (call.note (.timedOut controller))).Sound := by
  obtain ⟨hold, hcalm⟩ := hs.calls k _ hcall
  have haborted : ∀ c, s.aborted c = true → Function.update s.aborted controller true c = true := by
    intro c hc
    rw [Function.update_apply]
    split
    · rfl
    · exact hc
  have hmem : ∀ {event : RetryEvent T}, event ∈ (call.note (.timedOut controller)).log →
      event ∈ call.log ∨ event = .timedOut controller := fun h =>
    (List.mem_append.mp h).imp id List.mem_singleton.mp
  refine sound_update hs rfl rfl le_rfl haborted ?_ ⟨⟨?_, ?_, ?_, ?_, ?_⟩, ?_⟩ ?_ ?_
  · intro c hc
    rcases hmem hc with hc | hc
    · exact haborted c (hs.aborted_of_timedOut k call c hcall hc)
    · cases hc
      exact Function.update_self ..
  · exact fun c hc => List.mem_append_left _ (hold.current c hc)
  · have hcount := hold.attempts_eq
    simp only [RetryCall.note, attempts_append, Bool.false_eq_true, if_false, Nat.add_zero]
    exact hcount
  · intro event hevent hstops
    rcases hmem hevent with hevent | rfl
    · exact hold.stops event hevent hstops
    · exact hstops.elim
  · intro value
    refine (hold.returned value).trans ⟨fun ⟨c, hc⟩ => ⟨c, List.mem_append_left _ hc⟩, ?_⟩
    rintro ⟨c, hc⟩
    exact ⟨c, (hmem hc).resolve_right (fun h => by cases h)⟩
  · intro result hdone
    rw [show call.phase = .done result from hdone] at hcontroller
    cases hcontroller
  · exact fun c hc huncancelled => hcalm c hc (uncancelled_append huncancelled)
  · intro c hc
    exact .inl ⟨call, hcall, (hmem hc).resolve_right (fun h => by cases h)⟩
  · intro c hc
    by_cases hcurrent : c = controller
    · exact .inl (by rw [hcurrent]; exact hcontroller)
    · exact .inr ⟨hc, holds_of_controller hcall hcontroller c hc hcurrent⟩

theorem ready_call (hcall : s.calls k = none) : Ready s k retries 0 [] where
  known := fun c => ⟨fun hc => absurd hc List.not_mem_nil, fun hc => absurd hc List.not_mem_nil⟩
  holds := fun c _ call hcall' => by
    rw [hcall] at hcall'
    cases hcall'
  attempts_eq := rfl
  attempt_le := Nat.zero_le _
  unstopped := fun event hevent => absurd hevent List.not_mem_nil

/-- The backoff is over, and the `finally` clause has run. -/
theorem ready_wake (hs : s.Sound)
    (hcall : s.calls k = some ⟨retries, attempt, .backoff controller, log⟩) :
    Ready (s.release controller) k retries attempt log := by
  have hold := (hs.calls k _ hcall).1
  refine ⟨fun c => ⟨fun hc => ⟨_, hcall, hc⟩, fun hc => ⟨_, hcall, hc⟩⟩, ?_, hold.attempts_eq.1,
    hold.attempts_eq.2, unstopped_of_controller hold rfl⟩
  intro c hc
  obtain ⟨hne, hc⟩ := Finset.mem_erase.mp hc
  exact holds_of_controller hcall rfl c hc hne

theorem cancel_cases (call : RetryCall T) :
    (∃ result, call.phase = .done result ∧ call.cancel = call) ∨
      (∃ c, call.phase.controller? = some c) ∧ call.cancel = call.note .cancelled := by
  unfold RetryCall.cancel
  cases hphase : call.phase with
  | requesting c => exact .inr ⟨⟨c, rfl⟩, rfl⟩
  | backoff c => exact .inr ⟨⟨c, rfl⟩, rfl⟩
  | done result => exact .inl ⟨result, rfl, rfl⟩

theorem mem_cancel {event : RetryEvent T} (h : event ∈ call.cancel.log) :
    event ∈ call.log ∨ event = .cancelled := by
  rcases cancel_cases call with ⟨result, -, heq⟩ | ⟨-, heq⟩
  · rw [heq] at h
    exact .inl h
  · rw [heq] at h
    exact (List.mem_append.mp h).imp id List.mem_singleton.mp

/-- A call that `cancel` has reached. -/
theorem sound_call_cancel (hold : call.Sound) : call.cancel.Sound := by
  rcases cancel_cases call with ⟨result, -, heq⟩ | ⟨⟨c, hcontroller⟩, heq⟩
  · rwa [heq]
  · rw [heq]
    have hmem : ∀ {event : RetryEvent T}, event ∈ (call.note .cancelled).log →
        event ∈ call.log ∨ event = .cancelled := fun h =>
      (List.mem_append.mp h).imp id List.mem_singleton.mp
    refine ⟨?_, ?_, ?_, ?_, ?_⟩
    · exact fun c hc => List.mem_append_left _ (hold.current c hc)
    · have hcount := hold.attempts_eq
      simp only [RetryCall.note, attempts_append, Bool.false_eq_true, if_false, Nat.add_zero]
      exact hcount
    · intro event hevent hstops
      rcases hmem hevent with hevent | rfl
      · exact hold.stops event hevent hstops
      · exact hstops.elim
    · intro value
      refine (hold.returned value).trans ⟨fun ⟨c, hc⟩ => ⟨c, List.mem_append_left _ hc⟩, ?_⟩
      rintro ⟨c, hc⟩
      exact ⟨c, (hmem hc).resolve_right (fun h => by cases h)⟩
    · intro result hdone
      rw [show call.phase = .done result from hdone] at hcontroller
      cases hcontroller

/-- `cancel` reaches every suspended call and leaves no request active. -/
theorem sound_cancel (hs : s.Sound) (hstep : s.step .cancel = some s') : s'.Sound := by
  simp only [step, Option.some.injEq] at hstep
  subst hstep
  have hevent : ∀ {k : Nat} {call' : RetryCall T} {event : RetryEvent T}, event ≠ .cancelled →
      (s.calls k).map RetryCall.cancel = some call' → event ∈ call'.log →
      ∃ call, s.calls k = some call ∧ event ∈ call.log := by
    intro k call' event hne h hevent
    obtain ⟨call, hcall, rfl⟩ := Option.map_eq_some_iff.mp h
    exact ⟨call, hcall, (mem_cancel hevent).resolve_right hne⟩
  constructor
  · intro k call' hcall'
    obtain ⟨call, hcall, rfl⟩ := Option.map_eq_some_iff.mp hcall'
    refine ⟨sound_call_cancel (hs.calls k call hcall).1, fun c hc huncancelled => ?_⟩
    rcases cancel_cases call with ⟨result, hdone, heq⟩ | ⟨-, heq⟩
    · rw [heq, hdone] at hc
      cases hc
    · rw [heq] at huncancelled
      exact absurd (List.mem_append_right _ (List.mem_singleton_self _)) huncancelled.1
  · intro k call' c hcall' hc
    obtain ⟨call, hcall, hin⟩ := hevent (fun h => by cases h) hcall' hc
    exact hs.started_lt k call c hcall hin
  · intro k call' c hcall' hc
    obtain ⟨call, hcall, hin⟩ := hevent (fun h => by cases h) hcall' hc
    rw [Bool.or_eq_true]
    exact .inl (hs.aborted_of_timedOut k call c hcall hin)
  · intro j k first second c hj hk hc hc'
    obtain ⟨call, hcall, hin⟩ := hevent (fun h => by cases h) hj hc
    obtain ⟨other, hother, hin'⟩ := hevent (fun h => by cases h) hk hc'
    exact hs.distinct j k call other c hcall hother hin hin'
  · exact fun c hc => absurd hc (Finset.notMem_empty c)

/-- Clearing the set, with the flag as it is or down. -/
theorem sound_clear {flag : Bool} (hs : s.Sound) (hflag : flag = false ∨ flag = s.isCancelled) :
    ({ s with isCancelled := flag, activeRequests := ∅ }).Sound where
  calls := fun k call hcall => by
    obtain ⟨hold, hcalm⟩ := hs.calls k call hcall
    refine ⟨hold, fun c hc huncancelled => ?_⟩
    rcases hflag with rfl | rfl
    · rfl
    · exact hcalm c hc huncancelled
  started_lt := hs.started_lt
  aborted_of_timedOut := hs.aborted_of_timedOut
  distinct := hs.distinct
  owned := fun c hc => absurd hc (Finset.notMem_empty c)

/-- **Every step keeps the logs sound and the controllers owned.** -/
theorem sound_step {label : Label T} (hs : s.Sound)
    (hstep : s.step label = some s') : s'.Sound := by
  cases label with
  | call k retries =>
    simp only [step] at hstep
    split at hstep
    · rename_i hcall
      cases hstep
      exact sound_tryRequest hs (ready_call hcall)
    · cases hstep
  | settle k outcome =>
    simp only [step] at hstep
    split at hstep
    · rename_i hcall
      cases outcome with
      | ok value =>
        cases hstep
        exact sound_settle_ok hs hcall
      | error error =>
        cases hstep
        exact sound_settle_error hs hcall
    · cases hstep
  | timeout k =>
    simp only [step] at hstep
    split at hstep
    · rename_i call hcall
      split at hstep
      · rename_i controller hphase
        split at hstep
        · cases hstep
          exact sound_timeout hs hcall (by rw [hphase]; rfl)
        · cases hstep
      · rename_i controller hphase
        split at hstep
        · cases hstep
          exact sound_timeout hs hcall (by rw [hphase]; rfl)
        · cases hstep
      · cases hstep
    · cases hstep
  | wake k =>
    simp only [step] at hstep
    split at hstep
    · rename_i hcall
      cases hstep
      exact sound_tryRequest (sound_release hs) (ready_wake hs hcall)
    · cases hstep
  | cancel => exact sound_cancel hs hstep
  | restart =>
    cases hstep
    exact sound_clear hs (.inl rfl)
  | clear =>
    cases hstep
    exact sound_clear hs (.inr rfl)

theorem sound_run (hrun : Run step (fun _ _ => True) {} s) : s.Sound :=
  hrun.invariant sound_init fun _ _ _ hs _ hstep => sound_step hs hstep

/-! ## Calls that are over -/

theorem setCall_other {j : Nat} (hj : j ≠ k) : (s.setCall k call).calls j = s.calls j :=
  Function.update_of_ne hj _ _

theorem catchError_other {j : Nat} (hj : j ≠ k) :
    (s.catchError k call controller error).calls j = s.calls j := by
  rcases catchError_cases s k call controller error with ⟨_, _, heq, -⟩ | ⟨-, -, -, -, heq⟩
  · rw [heq]
    exact setCall_other hj
  · rw [heq]
    exact setCall_other hj

theorem tryRequest_other {j : Nat} (hj : j ≠ k) :
    (s.tryRequest k retries attempt log).calls j = s.calls j := by
  unfold tryRequest
  dsimp only
  split
  · exact catchError_other hj
  · exact setCall_other hj

/-- Nothing more happens to a call that is over. -/
theorem step_done {label : Label T} {result : RetryResult T} (hcall : s.calls k = some call)
    (hdone : call.phase = .done result) (hstep : s.step label = some s') :
    s'.calls k = some call := by
  have hne : ∀ {j c : Nat} {other : RetryCall T}, s.calls j = some other →
      other.phase.controller? = some c → k ≠ j := by
    rintro j c other hother hcontroller rfl
    obtain rfl : call = other := by simpa [hcall] using hother
    rw [hdone] at hcontroller
    cases hcontroller
  cases label with
  | call j retries =>
    simp only [step] at hstep
    split at hstep
    · rename_i hnone
      cases hstep
      rw [tryRequest_other (by rintro rfl; rw [hcall] at hnone; cases hnone), hcall]
    · cases hstep
  | settle j outcome =>
    simp only [step] at hstep
    split at hstep
    · rename_i hother
      have hj := hne hother rfl
      cases outcome with
      | ok value =>
        cases hstep
        exact (setCall_other hj).trans hcall
      | error error =>
        cases hstep
        exact (catchError_other hj).trans hcall
    · cases hstep
  | timeout j =>
    simp only [step] at hstep
    split at hstep
    · rename_i other hother
      split at hstep
      · rename_i controller hphase
        split at hstep
        · cases hstep
          exact (setCall_other (hne hother (by rw [hphase]; rfl))).trans hcall
        · cases hstep
      · rename_i controller hphase
        split at hstep
        · cases hstep
          exact (setCall_other (hne hother (by rw [hphase]; rfl))).trans hcall
        · cases hstep
      · cases hstep
    · cases hstep
  | wake j =>
    simp only [step] at hstep
    split at hstep
    · rename_i hother
      cases hstep
      exact (tryRequest_other (hne hother rfl)).trans hcall
    · cases hstep
  | cancel =>
    cases hstep
    simp only [hcall, Option.map_some, RetryCall.cancel, hdone]
  | restart =>
    cases hstep
    exact hcall
  | clear =>
    cases hstep
    exact hcall

theorem run_done {result : RetryResult T} (hcall : s.calls k = some call)
    (hdone : call.phase = .done result) (hrun : Run step (fun _ _ => True) s s') :
    s'.calls k = some call :=
  hrun.invariant (I := fun t => t.calls k = some call) hcall
    fun _ _ _ ht _ hstep => step_done ht hdone hstep

end RetrySystem

open RetrySystem in
/-- **Chunk retry policy.**  In every run, a call has made at most `retries + 1` attempts; once a
cancel was seen, or a request ended with a value, an authorization error or a `TransferFailure`,
nothing more happens to it; it returns a value exactly when a request returned it; when it is over,
none of its controllers is active; and when no cancel has reached it and the request of its last
attempt failed, after its timeout and not for want of authorization, it throws the timeout
failure. -/
theorem retry_policy {s : RetrySystem T} (hrun : Run step (fun _ _ => True) {} s) {k : Nat}
    {call : RetryCall T} (hcall : s.calls k = some call) :
    attempts call.log ≤ call.retries + 1 ∧
      (∀ event ∈ call.log, event.Stops → ∀ t, Run step (fun _ _ => True) s t →
        t.calls k = some call) ∧
      (∀ value, call.phase = .done (.returned value) ↔ ∃ c, .settled c (.ok value) ∈ call.log) ∧
      ∀ result, call.phase = .done result →
        (∀ c, .started c ∈ call.log → c ∉ s.activeRequests) ∧
        (Uncancelled call.log → ∃ c outcome, call.log.getLast? = some (.settled c outcome) ∧
          ∀ error, outcome = .error error → isUnauthorizedError error = false →
            .timedOut c ∈ call.log → result = .threw requestTimeout) := by
  have hs := sound_run hrun
  have hsound := (hs.calls k call hcall).1
  refine ⟨?_, ?_, hsound.returned, fun result hdone => ⟨?_, hsound.timedOut result hdone⟩⟩
  · have hcount := hsound.attempts_eq
    split at hcount <;> omega
  · intro event hevent hstops t ht
    obtain ⟨result, hdone⟩ := hsound.stops event hevent hstops
    exact run_done hcall hdone ht
  · intro c hstarted hactive
    obtain ⟨j, owner, howner, hcontroller⟩ := hs.owned c hactive
    obtain rfl : k = j :=
      hs.distinct k j call owner c hcall howner hstarted
        ((hs.calls j owner howner).1.current c hcontroller)
    obtain rfl : call = owner := by simpa [hcall] using howner
    rw [hdone] at hcontroller
    cases hcontroller

open RetrySystem in
/-- Two attempts that both run into their timeout. -/
theorem retry_policy_timeout : ∃ (s : RetrySystem Nat) (call : RetryCall Nat),
    s.calls 0 = some call ∧ call.phase = .done (.threw requestTimeout) ∧
      attempts call.log ≤ call.retries + 1 ∧ ∀ c, .started c ∈ call.log → c ∉ s.activeRequests := by
  let test (s : RetrySystem Nat) : Bool :=
    (s.calls 0).any fun call => decide (call.phase = .done (.threw requestTimeout))
  obtain ⟨s, hrun, htest⟩ := Run.exists_of_exec (RetrySystem.step (T := Nat)) (P := fun _ _ => True)
    (fun _ _ => true) test {}
    [.call 0 1, .timeout 0, .settle 0 (.error .other), .wake 0, .timeout 0,
      .settle 0 (.error .other)]
    (fun _ _ _ => trivial) (by decide)
  obtain ⟨call, hcall, hphase⟩ := (Option.any_eq_true _ _).mp htest
  have hdone := of_decide_eq_true hphase
  obtain ⟨hattempts, -, -, hover⟩ := retry_policy hrun hcall
  exact ⟨s, call, hcall, hdone, hattempts, (hover _ hdone).1⟩

end LocalMediaTransfer
