import LocalMediaTransfer.Ios.Upload.UploadCancel

/-!
# Where the files of a run are

After its preflight a file is held by the producer, among the prepared windows, by the enqueuer, in
the queue or by a worker, until a worker reports it.  `UploadRun.load` adds up a weight over these
places, so that nothing has to be said about their order.

* `Parked` — the workers that wait for a file hold none.
* `Carries` — an operation that reports no file: none is gained, and none is lost as long as the
  queue is open and the run is not cancelled.
* `pushFiles_carries`, `enqueuerStep_carries`, `cancel_carries` — the operations of that kind.
-/

set_option autoImplicit false

namespace LocalMediaTransfer

open Lib

/-! ## Accounts -/

/-- The files whose preflight is not over. -/
def ProducerPc.unchecked : ProducerPc → List PreparedUploadFile
  | .checking window => window.files
  | _ => []

/-- The files whose bytes are not planned yet. -/
def ProducerPc.announced : ProducerPc → List PreparedUploadFile
  | .releasing files => files
  | _ => []

/-- Events that say nothing about a single file, and not that the run is complete. -/
def RunEvent.isQuiet : RunEvent → Bool
  | .uploading _ | .cancelRequest | .history _ | .error _ => true
  | _ => false

/-- The workers have not started. -/
def MainPc.isStarting : MainPc → Bool
  | .beginTransfer | .thermalState | .startDiagnostics | .ping | .logStarted | .produce => true
  | _ => false

/-- The catch block. -/
def MainPc.isFailing : MainPc → Bool
  | .failFinish _ | .failHistory _ | .failLog _ => true
  | _ => false

/-- The finally block, and after it. -/
def MainPc.isClosing : MainPc → Bool
  | .cancelSession | .endTransfer | .metrics | .finished => true
  | _ => false

/-- The accounts of a run. -/
structure Ledger where
  log : List RunEvent
  outcomes : TransferOutcomes
  plannedUploadMediaBytes : Nat
  uploadedMediaBytes : Nat
  readyFiles : Nat
  checked : List (PreparedUploadFile × Option String)
  outgoingHashes : OutgoingHashRegistry

namespace UploadRun

def ledger (s : UploadRun) : Ledger :=
  { log := s.log
    outcomes := s.outcomes
    plannedUploadMediaBytes := s.plannedUploadMediaBytes
    uploadedMediaBytes := s.uploadedMediaBytes
    readyFiles := s.readyFiles
    checked := s.checked
    outgoingHashes := s.outgoingHashes }

/-- The workers that have not started or are suspended in the queue hold nothing, and the queue is
empty while any is suspended. -/
structure Parked (s : UploadRun) : Prop where
  starting : s.main.isStarting = true → ∀ w, s.workers w = .idle
  shifting : ∀ w ∈ s.queue.waitingConsumers, s.workers w = .shifting
  nodup : s.queue.waitingConsumers.Nodup
  empty : s.queue.waitingConsumers ≠ [] → s.queue.items = []
  closed : s.queue.closed = true → s.queue.waitingConsumers = []

variable {cfg : UploadConfig} {s s' t u : UploadRun}

/-- The run was cancelled, or has failed. -/
def Disturbed (s : UploadRun) : Prop :=
  s.isCancelled = true ∨ s.main.isFailing = true ∨
    (s.main.isClosing = true ∧ ∃ failure, .error failure ∈ s.log)

theorem Disturbed.of_log (h : s.Disturbed) (hcancelled : s'.isCancelled = s.isCancelled)
    (hmain : s'.main = s.main) (hlog : ∀ e ∈ s.log, e ∈ s'.log) : s'.Disturbed := by
  unfold Disturbed
  rw [hcancelled, hmain]
  rcases h with hc | hfailing | ⟨hclosing, failure, hmem⟩
  · exact .inl hc
  · exact .inr (.inl hfailing)
  · exact .inr (.inr ⟨hclosing, failure, hlog _ hmem⟩)

/-- A run that cannot lose a file. -/
structure IsOpen (s : UploadRun) : Prop where
  notCancelled : s.isCancelled = false
  queueOpen : s.queue.closed = false

/-- **An operation that reports no file.** -/
structure Carries (s s' : UploadRun) (lossless : Prop) : Prop where
  ledger : ∃ new, s'.ledger = { s.ledger with log := s.log ++ new } ∧ ∀ e ∈ new, e.isQuiet = true
  load_le : ∀ g, s'.load g ≤ s.load g
  load_eq : lossless → ∀ g, s'.load g = s.load g
  unchecked : s'.producer.unchecked = s.producer.unchecked ∨ s'.producer.unchecked = []
  unchecked_eq : lossless → s'.producer.unchecked = s.producer.unchecked
  counted_le : ∀ g, s'.load g + filesWeight g s.producer.announced ≤
    s.load g + filesWeight g s'.producer.announced
  parked : s'.Parked
  disturbed : s.Disturbed → s'.Disturbed

theorem Carries.trans {p q : Prop} (h : Carries s t p) (h' : Carries t u q) :
    Carries s u (p ∧ q) where
  ledger := by
    obtain ⟨new, hledger, hquiet⟩ := h.ledger
    obtain ⟨new', hledger', hquiet'⟩ := h'.ledger
    have hlog : t.log = s.log ++ new := congrArg Ledger.log hledger
    refine ⟨new ++ new', ?_, ?_⟩
    · rw [hledger', hledger, hlog, List.append_assoc]
    · intro e he
      rcases List.mem_append.mp he with he | he
      · exact hquiet e he
      · exact hquiet' e he
  load_le g := (h'.load_le g).trans (h.load_le g)
  load_eq hpq g := (h'.load_eq hpq.2 g).trans (h.load_eq hpq.1 g)
  unchecked := by
    rcases h'.unchecked with heq | hnil
    · rw [heq]
      exact h.unchecked
    · exact .inr hnil
  unchecked_eq hpq := (h'.unchecked_eq hpq.2).trans (h.unchecked_eq hpq.1)
  counted_le g := by
    have hg := h.counted_le g
    have hg' := h'.counted_le g
    omega
  parked := h'.parked
  disturbed hd := h'.disturbed (h.disturbed hd)

theorem Carries.imp {p q : Prop} (h : Carries s s' p) (hpq : q → p) : Carries s s' q :=
  { h with load_eq := fun hq => h.load_eq (hpq hq), unchecked_eq := fun hq =>
    h.unchecked_eq (hpq hq) }

/-- An operation that leaves the accounts alone. -/
theorem Carries.frame {p : Prop} (hledger : s'.ledger = s.ledger) (hle : ∀ g, s'.load g ≤ s.load g)
    (heq : p → ∀ g, s'.load g = s.load g)
    (hunchecked : s'.producer.unchecked = s.producer.unchecked) (hparked : s'.Parked)
    (hdisturbed : s.Disturbed → s'.Disturbed)
    (hannounced : s'.producer.announced = s.producer.announced) : Carries s s' p where
  ledger := ⟨[], by rw [hledger, List.append_nil]; rfl, fun e he => absurd he List.not_mem_nil⟩
  load_le := hle
  load_eq := heq
  unchecked := .inl hunchecked
  unchecked_eq _ := hunchecked
  counted_le g := by
    rw [hannounced]
    exact Nat.add_le_add_right (hle g) _
  parked := hparked
  disturbed := hdisturbed

theorem Parked.of_eq (hp : s.Parked) (hqueue : s'.queue = s.queue)
    (hworkers : s'.workers = s.workers)
    (hmain : s'.main.isStarting = true → s.main.isStarting = true) : s'.Parked := by
  refine ⟨?_, ?_, ?_, ?_, ?_⟩
  · rw [hworkers]
    exact fun h => hp.starting (hmain h)
  all_goals rw [hqueue]
  · rw [hworkers]
    exact hp.shifting
  · exact hp.nodup
  · exact hp.empty
  · exact hp.closed

/-! ## The queue -/

theorem load_setWorker (g : FileWeight) (w : Fin 2) (pc : WorkerPc) :
    (s.setWorker w pc).load g + (s.workers w).load g = s.load g + pc.load g := by
  match w with
  | 0 =>
    simp [load, setWorker]
    omega
  | 1 =>
    simp [load, setWorker]
    omega

theorem load_setProducer (g : FileWeight) (pc : ProducerPc) :
    ({ s with producer := pc } : UploadRun).load g + filesWeight g s.producer.files =
      s.load g + filesWeight g pc.files := by
  simp only [load]
  omega

theorem load_setEnqueuer (g : FileWeight) (pc : EnqueuerPc) :
    ({ s with enqueuer := pc } : UploadRun).load g + filesWeight g s.enqueuer.files =
      s.load g + filesWeight g pc.files := by
  simp only [load]
  omega

theorem Parked.setWorker (hp : s.Parked) {w : Fin 2} (hw : w ∉ s.queue.waitingConsumers)
    (hmain : s.main.isStarting = false) (pc : WorkerPc) : (s.setWorker w pc).Parked where
  starting h := by
    rw [show (s.setWorker w pc).main = s.main from rfl, hmain] at h
    cases h
  shifting v hv := by
    have hne : v ≠ w := fun heq => hw (heq ▸ hv)
    rw [← hp.shifting v hv]
    exact Function.update_of_ne hne ..
  nodup := hp.nodup
  empty := hp.empty
  closed := hp.closed

/-- A worker that is not suspended in the queue goes on. -/
theorem Parked.notWaiting (hp : s.Parked) {w : Fin 2} (hw : s.workers w ≠ .shifting) :
    w ∉ s.queue.waitingConsumers :=
  fun hmem => hw (hp.shifting w hmem)

/-- A worker that is at work has started. -/
theorem Parked.started (hp : s.Parked) {w : Fin 2} (hw : s.workers w ≠ .idle) :
    s.main.isStarting = false := by
  by_contra h
  exact hw (hp.starting (by simpa using h) w)

/-- A worker moves without reporting anything. -/
theorem Carries.ofWorker {p : Prop} (hp : s.Parked) {w : Fin 2} (pc : WorkerPc)
    (hw : s.workers w ≠ .shifting) (hmain : s.main.isStarting = false)
    (hle : ∀ g, pc.load g ≤ (s.workers w).load g)
    (heq : p → ∀ g, pc.load g = (s.workers w).load g) : Carries s (s.setWorker w pc) p where
  ledger := ⟨[], by rw [List.append_nil]; rfl, fun e he => absurd he List.not_mem_nil⟩
  load_le g := by
    have h := load_setWorker (s := s) g w pc
    have hg := hle g
    omega
  load_eq hpq g := by
    have h := load_setWorker (s := s) g w pc
    have hg := heq hpq g
    omega
  unchecked := .inl rfl
  unchecked_eq _ := rfl
  counted_le g := by
    have h := load_setWorker (s := s) g w pc
    have hg := hle g
    show (s.setWorker w pc).load g + filesWeight g s.producer.announced ≤ _
    exact Nat.add_le_add_right (by omega) _
  parked := hp.setWorker (hp.notWaiting hw) hmain pc
  disturbed := id

theorem Carries.ofActive {p : Prop} (hp : s.Parked) {w : Fin 2} {pc pc' : WorkerPc}
    (hw : s.workers w = pc) (hshifting : pc ≠ .shifting) (hidle : pc ≠ .idle)
    (hle : ∀ g, pc'.load g ≤ pc.load g) (heq : p → ∀ g, pc'.load g = pc.load g) :
    Carries s (s.setWorker w pc') p := by
  subst hw
  exact .ofWorker hp _ hshifting (hp.started hidle) hle heq

theorem workers_closeQueue (hp : s.Parked) (g : FileWeight) (w : Fin 2) :
    (s.closeQueue.workers w).load g = (s.workers w).load g := by
  unfold closeQueue
  simp only
  split
  · rename_i h
    rw [hp.shifting w h.2]
    rfl
  · rfl

theorem closeQueue_idle (hp : s.Parked) (h : ∀ w, s.workers w = .idle) (w : Fin 2) :
    s.closeQueue.workers w = .idle := by
  unfold closeQueue
  simp only
  split
  · rename_i hw
    have hshifting := hp.shifting w hw.2
    rw [h w] at hshifting
    cases hshifting
  · exact h w

theorem closeQueue_carries (hp : s.Parked) {p : Prop} : Carries s s.closeQueue p := by
  have hload : ∀ g, s.closeQueue.load g = s.load g := by
    intro g
    have hitems : s.closeQueue.queue.items = s.queue.items := s.queue.close_items
    unfold load
    rw [workers_closeQueue hp, workers_closeQueue hp, hitems]
    rfl
  refine ⟨⟨[], by rw [List.append_nil]; rfl, fun e he => absurd he List.not_mem_nil⟩,
    fun g => (hload g).le, fun _ => hload, .inl rfl, fun _ => rfl,
    fun g => Nat.add_le_add_right (hload g).le _, ?_, id⟩
  have hwaiting : s.closeQueue.queue.waitingConsumers = [] := by
    show s.queue.close.waitingConsumers = []
    unfold BoundedAsyncQueue.close
    split
    · rename_i hclosed
      exact hp.closed hclosed
    · rfl
  refine ⟨fun h => closeQueue_idle hp (hp.starting h), ?_, ?_, ?_, ?_⟩
  all_goals rw [hwaiting]
  · exact fun w hw => absurd hw List.not_mem_nil
  · exact List.nodup_nil
  · exact fun h => absurd rfl h
  · exact fun _ => rfl

theorem cancel_carries (hp : s.Parked) {p : Prop} : Carries s s.cancel p := by
  have hmarked : Carries s ({ s with
      isCancelled := true
      log := s.log ++ [.cancelRequest]
      thermal := s.thermal.cancel } : UploadRun) p := by
    refine ⟨⟨[.cancelRequest], rfl, ?_⟩, fun g => le_rfl, fun _ _ => rfl, .inl rfl, fun _ => rfl,
      fun g => le_rfl, ?_,
      fun _ => .inl rfl⟩
    · intro e he
      rw [List.mem_singleton.mp he]
      rfl
    · exact hp.of_eq rfl rfl id
  exact (hmarked.trans (closeQueue_carries hmarked.parked (p := True))).imp fun h => ⟨h, trivial⟩

/-- What a push does to the files; it touches the queue and the workers only. -/
theorem push_spec (hp : s.Parked) {feeder : Feeder} {file : PreparedUploadFile} {suspended : Bool}
    (h : s.push feeder file = some (s', suspended)) :
    (∃ queue workers, s' = { s with queue, workers }) ∧ s'.Parked ∧
      ∀ g, s'.load g = s.load g + if suspended then 0 else g file 0 := by
  unfold push at h
  rcases s.queue.push_cases file feeder with ⟨-, -, heq⟩ | ⟨-, heq⟩ |
    ⟨hopen, -, consumer, waiting, hwaiting, heq⟩ | ⟨-, -, hwaiting,
      heq⟩ <;> rw [heq] at h <;> cases h
  · exact ⟨⟨_, _, rfl⟩, ⟨hp.starting, hp.shifting, hp.nodup, hp.empty, hp.closed⟩, fun g => rfl⟩
  · have hmem : consumer ∈ s.queue.waitingConsumers := by
      rw [hwaiting]
      exact List.mem_cons_self
    have hnodup := hp.nodup
    rw [hwaiting, List.nodup_cons] at hnodup
    have hitems : s.queue.items = [] := hp.empty (List.ne_nil_of_mem hmem)
    have hparked : ({ s with queue := { s.queue with waitingConsumers := waiting } } :
        UploadRun).Parked := by
      refine ⟨hp.starting, fun w hw => hp.shifting w ?_, hnodup.2, fun _ =>
        hitems, fun hclosed => ?_⟩
      · rw [hwaiting]
        exact List.mem_cons_of_mem _ hw
      · rw [show s.queue.closed = true from hclosed] at hopen
        cases hopen
    have hmain : s.main.isStarting = false := hp.started (w := consumer) (by
      rw [hp.shifting consumer hmem]
      exact WorkerPc.noConfusion)
    refine ⟨⟨_, _, rfl⟩, hparked.setWorker hnodup.1 hmain _, fun g => ?_⟩
    have hload := load_setWorker
      (s := { s with queue := { s.queue with waitingConsumers := waiting } }) g
      consumer (.received (some file))
    rw [show ({ s with queue := { s.queue with waitingConsumers := waiting } } : UploadRun).workers
      consumer = .shifting from hp.shifting consumer hmem] at hload
    exact hload
  · refine ⟨⟨_, _, rfl⟩, ⟨hp.starting, ?_, ?_, ?_, ?_⟩, fun g => ?_⟩
    · exact hp.shifting
    · exact hp.nodup
    · exact fun h => absurd hwaiting h
    · exact hp.closed
    · simp only [load, filesWeight_append, filesWeight_cons, filesWeight_nil]
      show _ = _ + g file 0
      omega

theorem push_idle (hp : s.Parked) (h : ∀ w, s.workers w = .idle) {feeder : Feeder}
    {file : PreparedUploadFile} {suspended : Bool}
    (hs : s.push feeder file = some (s', suspended)) :
    ∀ w, s'.workers w = .idle := by
  unfold push at hs
  rcases s.queue.push_cases file feeder with ⟨-, -, heq⟩ | ⟨-, heq⟩ |
    ⟨-, -, consumer, waiting, hwaiting, heq⟩ | ⟨-, -, -, heq⟩ <;> rw [heq] at hs <;> cases hs
  · exact h
  · have hshifting := hp.shifting consumer (by rw [hwaiting]; exact List.mem_cons_self)
    rw [h consumer] at hshifting
    cases hshifting
  · exact h

theorem workerLoop_carries (hp : s.Parked) {w : Fin 2} (hw : s.workers w ≠ .shifting)
    (hmain : s.main.isStarting = false) (hload : ∀ g, (s.workers w).load g = 0) {p : Prop} :
    Carries s (s.workerLoop w) p := by
  have hzero : ∀ pc : WorkerPc, (∀ g, pc.load g = 0) →
    Carries s (s.setWorker w pc) p := fun pc hpc =>
    .ofWorker hp pc hw hmain (fun g => by rw [hpc, hload]) fun _ g => by rw [hpc, hload]
  have hnot := hp.notWaiting hw
  unfold workerLoop
  split
  · exact hzero .done fun _ => rfl
  · rcases s.queue.shift_cases w with ⟨file, items, hitems, heq⟩ | ⟨-, -, heq⟩ |
      ⟨hitems, hopen, heq⟩ <;> rw [heq]
    · have hwaiting : s.queue.waitingConsumers = [] := by
        by_contra hne
        rw [hp.empty hne] at hitems
        cases hitems
      have heqload : ∀ g, (({ s with queue := { s.queue with
          items, waitingProducers := s.queue.waitingProducers.tail } } : UploadRun).setWorker w
            (.received (some file))).load g = s.load g := by
        intro g
        have h := load_setWorker (s := { s with queue := { s.queue with
          items, waitingProducers := s.queue.waitingProducers.tail } }) g w (.received (some file))
        have hworker := hload g
        simp only [load, hitems, filesWeight_cons, WorkerPc.load] at h hworker ⊢
        omega
      refine ⟨⟨[], by rw [List.append_nil]; rfl, fun e he => absurd he List.not_mem_nil⟩,
        fun g => (heqload g).le, fun _ => heqload, .inl rfl, fun _ => rfl,
        fun g => Nat.add_le_add_right (heqload g).le _, ?_, id⟩
      refine ⟨fun h => absurd (show s.main.isStarting = true from h) (Bool.eq_false_iff.mp hmain),
        ?_, ?_, ?_, ?_⟩ <;> show _ <;> simp only [setWorker, hwaiting]
      · exact fun v hv => absurd hv List.not_mem_nil
      · exact List.nodup_nil
      · exact fun h => absurd rfl h
      · exact fun _ => trivial
    · exact hzero (.received none) fun _ => rfl
    · have heqload : ∀ g, (({ s with queue := { s.queue with
          waitingConsumers := s.queue.waitingConsumers ++ [w] } } : UploadRun).setWorker w
            .shifting).load g = s.load g := by
        intro g
        have h := load_setWorker (s := { s with queue := { s.queue with
          waitingConsumers := s.queue.waitingConsumers ++ [w] } }) g w .shifting
        have hworker := hload g
        simp only [load, WorkerPc.load] at h hworker ⊢
        omega
      refine ⟨⟨[], by rw [List.append_nil]; rfl, fun e he => absurd he List.not_mem_nil⟩,
        fun g => (heqload g).le, fun _ => heqload, .inl rfl, fun _ => rfl,
        fun g => Nat.add_le_add_right (heqload g).le _, ?_, id⟩
      refine ⟨fun h => absurd (show s.main.isStarting = true from h) (Bool.eq_false_iff.mp hmain),
        fun v hv => ?_, ?_, fun _ => hitems, fun hclosed => ?_⟩
      · rcases List.mem_append.mp hv with hv | hv
        · have hne : v ≠ w := fun heq => hnot (heq ▸ hv)
          show Function.update s.workers w .shifting v = .shifting
          rw [Function.update_of_ne hne]
          exact hp.shifting v hv
        · rw [List.mem_singleton.mp hv]
          exact Function.update_self ..
      · show (s.queue.waitingConsumers ++ [w]).Nodup
        rw [List.nodup_append]
        refine ⟨hp.nodup, List.nodup_singleton w, fun a ha b hb heq => ?_⟩
        rw [List.mem_singleton.mp hb] at heq
        exact hnot (heq ▸ ha)
      · rw [show s.queue.closed = true from hclosed] at hopen
        cases hopen

/-! ## The producer -/

theorem setProducer_carries (hp : s.Parked) (pc : ProducerPc) (hfiles : pc.files = s.producer.files)
    (hunchecked : pc.unchecked = s.producer.unchecked)
    (hannounced : pc.announced = s.producer.announced) {p : Prop} :
    Carries s { s with producer := pc } p := by
  have hload : ∀ g, ({ s with producer := pc } : UploadRun).load g = s.load g := by
    intro g
    have h := load_setProducer (s := s) g pc
    rw [hfiles] at h
    omega
  exact .frame rfl (fun g => (hload g).le) (fun _ => hload) hunchecked
    (hp.of_eq rfl rfl id) id hannounced

theorem announced_le (g : FileWeight) (pc : ProducerPc) :
    filesWeight g pc.announced ≤ filesWeight g pc.files := by
  cases pc with
  | releasing files => exact le_rfl
  | _ => exact Nat.zero_le _

theorem producerFail_carries (hp : s.Parked) (error : RunError) :
    Carries s (s.producerFail error) False := by
  obtain ⟨t, hcancel, heq⟩ : ∃ t : UploadRun, Carries s t True ∧ t.isCancelled = true ∧
      s.producerFail error = { t with producer := .returned false } := by
    have hmarked : Carries s { s with fatalError := (s.producerFail error).fatalError } True :=
      .frame rfl (fun g => le_rfl) (fun _ _ => rfl) rfl (hp.of_eq rfl rfl id) id rfl
    have hcancel := hmarked.trans (cancel_carries hmarked.parked (p := True))
    exact ⟨_, hcancel.imp fun _ => ⟨trivial, trivial⟩, rfl, rfl⟩
  rw [heq.2]
  refine ⟨hcancel.ledger, fun g => ?_, False.elim, .inr rfl, False.elim, fun g => ?_, ?_,
    fun _ => .inl heq.1⟩
  · have hload := load_setProducer (s := t) g (.returned false)
    have hle := hcancel.load_le g
    simp only [ProducerPc.files, filesWeight_nil] at hload
    omega
  · have hload := load_setProducer (s := t) g (.returned false)
    have hle := hcancel.counted_le g
    have hannounced := announced_le g t.producer
    rw [show (ProducerPc.returned false).files = [] from rfl, filesWeight_nil] at hload
    show _ ≤ s.load g + filesWeight g []
    rw [filesWeight_nil]
    omega
  · exact hcancel.parked.of_eq rfl rfl id

/-- The producer is at the head of its loop, and holds no file there. -/
theorem producerLoop_eq (cfg : UploadConfig) (s : UploadRun) :
    ∃ pc : ProducerPc, s.producerLoop cfg = { s with producer := pc } ∧ pc.files = [] ∧
      pc.unchecked = [] ∧ pc.announced = [] := by
  unfold producerLoop
  split
  · split
    · exact ⟨_, rfl, rfl, rfl, rfl⟩
    · exact ⟨_, rfl, rfl, rfl, rfl⟩
  · exact ⟨_, rfl, rfl, rfl, rfl⟩

theorem producerLoop_carries (cfg : UploadConfig) (hp : s.Parked) {p : Prop}
    (hidle : p → s.producer.files = [] ∧ s.producer.unchecked = []) :
    Carries s (s.producerLoop cfg) p := by
  obtain ⟨pc, heq, hfiles, hnone, -⟩ := producerLoop_eq cfg s
  rw [heq]
  have hload : ∀ g, ({ s with producer := pc } : UploadRun).load g +
      filesWeight g s.producer.files = s.load g := by
    intro g
    have h := load_setProducer (s := s) g pc
    rw [hfiles] at h
    exact h
  refine ⟨⟨[], by rw [List.append_nil]; rfl, fun e he => absurd he List.not_mem_nil⟩,
    fun g => ?_, fun h g => ?_, .inr hnone, fun h => hnone.trans (hidle h).2.symm, fun g => ?_,
    hp.of_eq rfl rfl id, id⟩
  · have hg := hload g
    omega
  · have hg := hload g
    rw [(hidle h).1] at hg
    exact hg
  · have hg := hload g
    have hle := announced_le g s.producer
    omega

theorem nextWindow_carries (hp : s.Parked) {p : Prop}
    (hidle : p → s.producer.files = [] ∧ s.producer.unchecked = []) :
    Carries s (s.nextWindow cfg) p := by
  have hmoved : Carries s { s with startIndex := s.startIndex + cfg.policy.windowSize } True :=
    .frame rfl (fun g => le_rfl) (fun _ _ => rfl) rfl (hp.of_eq rfl rfl id) id rfl
  have hloop := producerLoop_carries cfg hmoved.parked (p := p) hidle
  exact (hmoved.trans hloop).imp fun h => ⟨trivial, h⟩

theorem producerPush_carries (hp : s.Parked) {file : PreparedUploadFile}
    {rest : List PreparedUploadFile} (hfiles : s.producer.files = file :: rest)
    (hunchecked : s.producer.unchecked = []) (hannounced : s.producer.announced = []) :
    Carries s (s.producerPush file rest) (s.queue.closed = false) := by
  unfold producerPush
  split
  · rename_i hpush
    refine (producerFail_carries hp .other).imp fun hopen => ?_
    rw [push_eq_none hpush] at hopen
    cases hopen
  · rename_i t hpush
    obtain ⟨⟨queue, workers, rfl⟩, hparked, hload⟩ := push_spec hp hpush
    have heq : ∀ g, ({ s with queue, workers, producer := .pushing file rest } : UploadRun).load g =
        s.load g := by
      intro g
      have h := load_setProducer (s := { s with queue, workers }) g (.pushing file rest)
      have ht := hload g
      rw [show ({ s with queue, workers } : UploadRun).producer.files =
        file :: rest from hfiles] at h
      simp only [ProducerPc.files, if_true] at h ht
      omega
    exact .frame rfl (fun g => (heq g).le) (fun _ => heq) hunchecked.symm
      (hparked.of_eq rfl rfl id) id
      hannounced.symm
  · rename_i t hpush
    obtain ⟨⟨queue, workers, rfl⟩, hparked, hload⟩ := push_spec hp hpush
    have heq : ∀ g, ({ s with queue, workers, producer := .pushed rest } : UploadRun).load g =
        s.load g := by
      intro g
      have h := load_setProducer (s := { s with queue, workers }) g (.pushed rest)
      have ht := hload g
      rw [show ({ s with queue, workers } : UploadRun).producer.files =
        file :: rest from hfiles] at h
      simp only [ProducerPc.files, filesWeight_cons, Bool.false_eq_true, if_false] at h ht
      omega
    exact .frame rfl (fun g => (heq g).le) (fun _ => heq) hunchecked.symm
      (hparked.of_eq rfl rfl id) id
      hannounced.symm

theorem pushFiles_carries (cfg : UploadConfig) (hp : s.Parked) {files : List PreparedUploadFile}
    (hfiles : s.producer.files = files) (hunchecked : s.producer.unchecked = [])
    (hannounced : s.producer.announced = []) : Carries s (s.pushFiles cfg files) s.IsOpen := by
  unfold pushFiles
  split
  · exact nextWindow_carries hp fun _ => ⟨hfiles, hunchecked⟩
  · split
    · rename_i hc
      refine nextWindow_carries hp fun hopen => ?_
      rw [hopen.notCancelled] at hc
      cases hc
    · exact (producerPush_carries hp hfiles hunchecked hannounced).imp fun hopen => hopen.queueOpen

theorem pushFiles_congr (pc : ProducerPc) (files : List PreparedUploadFile) :
    ({ s with producer := pc } : UploadRun).pushFiles cfg files = s.pushFiles cfg files := by
  unfold pushFiles
  split
  · rfl
  · split
    · rfl
    · rename_i file rest _
      unfold producerPush push
      simp only
      generalize s.queue.push file .producer = pushed
      cases pushed <;> rfl

/-- The bytes of the files that will be sent. -/
def plannedBytes (files : List PreparedUploadFile) : Nat :=
  ((files.filter isPlanned).map (·.size)).sum

/-- The window of a producer is planned: its files are about to be pushed. -/
def count (s : UploadRun) (files : List PreparedUploadFile) : UploadRun :=
  { s with
    plannedUploadMediaBytes := s.plannedUploadMediaBytes + plannedBytes files
    producer := .pushed files }

theorem enqueueWindow_carries (hp : s.Parked) {files : List PreparedUploadFile} :
    Carries (s.count files) (s.enqueueWindow cfg files) s.IsOpen := by
  have hcounted : (s.count files).Parked := hp.of_eq rfl rfl id
  unfold enqueueWindow
  simp only
  split
  · have hfiles : (s.count files).producer.files = files := rfl
    have hpushed := pushFiles_carries cfg hcounted hfiles rfl rfl
    rw [show s.count files = { ({ s with
      plannedUploadMediaBytes := s.plannedUploadMediaBytes + plannedBytes files } : UploadRun) with
        producer := .pushed files } from rfl, pushFiles_congr] at hpushed
    exact hpushed.imp fun hopen => ⟨hopen.notCancelled, hopen.queueOpen⟩
  · obtain ⟨pc, heq, hnil, hnone, hannounced⟩ := producerLoop_eq cfg { s with
        plannedUploadMediaBytes := s.plannedUploadMediaBytes + plannedBytes files
        preparedWindows := s.preparedWindows ++ [files]
        startIndex := s.startIndex + cfg.policy.windowSize }
    unfold nextWindow
    unfold plannedBytes at heq
    rw [heq]
    have hload : ∀ g, ({ s with
        plannedUploadMediaBytes := s.plannedUploadMediaBytes + plannedBytes files
        preparedWindows := s.preparedWindows ++ [files]
        startIndex := s.startIndex + cfg.policy.windowSize
        producer := pc } : UploadRun).load g = (s.count files).load g := by
      intro g
      have hpushed : (s.count files).producer.files = files := rfl
      simp only [load, hnil, hpushed, List.flatten_append, List.flatten_cons, List.flatten_nil,
        List.append_nil, filesWeight_append, filesWeight_nil]
      simp only [count]
      omega
    exact .frame rfl (fun g => (hload g).le) (fun _ => hload) hnone
      (hp.of_eq rfl rfl id) id hannounced

/-! ## The enqueuer -/

theorem setEnqueuer_carries (hp : s.Parked) (pc : EnqueuerPc) {p : Prop}
    (hle : ∀ g, filesWeight g pc.files ≤ filesWeight g s.enqueuer.files)
    (heq : p → pc.files = s.enqueuer.files) : Carries s { s with enqueuer := pc } p := by
  refine .frame rfl (fun g => ?_) (fun h g => ?_) rfl (hp.of_eq rfl rfl id) id rfl
  · have hload := load_setEnqueuer (s := s) g pc
    have hg := hle g
    omega
  · have hload := load_setEnqueuer (s := s) g pc
    rw [heq h] at hload
    omega

theorem enqueuerReturn_carries (hp : s.Parked) {rejected : Bool} {p : Prop}
    (hfiles : p → s.enqueuer.files = []) : Carries s (s.enqueuerReturn rejected) p := by
  have hclosed := closeQueue_carries hp (p := p)
  have hdone := setEnqueuer_carries hclosed.parked (.done rejected) (p := p)
    (fun g => Nat.zero_le _) fun h => (hfiles h).symm
  exact (hclosed.trans hdone).imp fun h => ⟨h, h⟩

theorem enqueuerPush_carries (hp : s.Parked) {file : PreparedUploadFile}
    {rest : List PreparedUploadFile} (hfiles : s.enqueuer.files = file :: rest) :
    Carries s (s.enqueuerPush file rest) (s.queue.closed = false) := by
  unfold enqueuerPush
  split
  · rename_i hpush
    refine enqueuerReturn_carries hp fun hopen => ?_
    rw [push_eq_none hpush] at hopen
    cases hopen
  · rename_i t hpush
    obtain ⟨⟨queue, workers, rfl⟩, hparked, hload⟩ := push_spec hp hpush
    have heq : ∀ g, ({ s with queue, workers, enqueuer := .pushing file rest } : UploadRun).load g =
        s.load g := by
      intro g
      have h := load_setEnqueuer (s := { s with queue, workers }) g (.pushing file rest)
      have ht := hload g
      rw [show ({ s with queue, workers } : UploadRun).enqueuer.files =
        file :: rest from hfiles] at h
      simp only [EnqueuerPc.files, if_true] at h ht
      omega
    exact .frame rfl (fun g => (heq g).le) (fun _ => heq) rfl (hparked.of_eq rfl rfl id) id rfl
  · rename_i t hpush
    obtain ⟨⟨queue, workers, rfl⟩, hparked, hload⟩ := push_spec hp hpush
    have heq : ∀ g, ({ s with queue, workers, enqueuer := .pushed rest } : UploadRun).load g =
        s.load g := by
      intro g
      have h := load_setEnqueuer (s := { s with queue, workers }) g (.pushed rest)
      have ht := hload g
      rw [show ({ s with queue, workers } : UploadRun).enqueuer.files =
        file :: rest from hfiles] at h
      simp only [EnqueuerPc.files, filesWeight_cons, Bool.false_eq_true, if_false] at h ht
      omega
    exact .frame rfl (fun g => (heq g).le) (fun _ => heq) rfl (hparked.of_eq rfl rfl id) id rfl

theorem enqueueFiles_carries (hp : s.Parked) (files : List PreparedUploadFile)
    (hfiles : s.enqueuer.files = files) : Carries s (s.enqueueFiles files) s.IsOpen := by
  unfold enqueueFiles
  split
  · exact enqueuerReturn_carries hp fun _ => hfiles
  · split
    · rename_i hc
      refine enqueuerReturn_carries hp fun hopen => ?_
      rw [hopen.notCancelled] at hc
      cases hc
    · exact (enqueuerPush_carries hp hfiles).imp fun hopen => hopen.queueOpen

theorem enqueuerStep_carries (hp : s.Parked) (hs : s.enqueuerStep = some s') :
    Carries s s' s.IsOpen := by
  unfold enqueuerStep at hs
  split at hs
  · rename_i file rest hpc
    split at hs
    · cases hs
    · cases hs
      exact (enqueuerPush_carries hp (by rw [hpc]; rfl)).imp fun hopen => hopen.queueOpen
  · rename_i rest hpc
    cases hs
    exact enqueueFiles_carries hp _ (by rw [hpc]; rfl)
  · cases hs

end UploadRun

end LocalMediaTransfer
