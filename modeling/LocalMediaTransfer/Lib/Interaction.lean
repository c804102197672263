import LocalMediaTransfer.Lib.Run

/-!
# Programs that call an environment

A program over an interface of calls is a tree (`Prog`): it returns, or it makes a call and goes
on with the answer.  What a call does and which answers it may get is a relation on the states of
the world, so a deterministic service, a fault at any point and an adversary are instances of one
notion.

* `wp`, `wp_bind`, `Runs.post` — the weakest precondition, its composition rule and its meaning:
  a result that holds by `wp` holds of every run.
* `runWith`, `Runs.of_runWith` — with a function that answers the calls a program is evaluated.
* `Traced`, `Runs.traced` — the world that also keeps the list of the calls and their answers.
* `Guarded`, `Guarded.bind` — the precondition under interference: before each call the rest of the
  system may move the world along `rely`, and each call must stay within `guar`.
* `Triple`, `Triple.ask`, `Triple.frame` — programs between stable assertions: the rule for one
  call, and the frame rule.
* `Pool.Step`, `Pool.invariant` — threads that run programs one call at a time next to an
  environment, and the rely-guarantee rule for their reachable states.
-/

set_option autoImplicit false

namespace LocalMediaTransfer.Lib

/-- The calls that a program can make, and what each of them answers. -/
structure Interface where
  Call : Type
  Answer : Call → Type

/-- A program: return, or call and go on with the answer. -/
inductive Prog (J : Interface) (α : Type) : Type where
  | pure (value : α)
  | call (c : J.Call) (next : J.Answer c → Prog J α)

namespace Prog

variable {J : Interface} {α β : Type}

def bind : Prog J α → (α → Prog J β) → Prog J β
  | .pure a, f => f a
  | .call c next, f => .call c fun x => (next x).bind f

instance : Monad (Prog J) where
  pure := .pure
  bind := bind

/-- The program that makes one call. -/
def ask (c : J.Call) : Prog J (J.Answer c) := .call c .pure

end Prog

/-- The calls of two interfaces. -/
@[reducible] def Interface.sum (J K : Interface) : Interface where
  Call := J.Call ⊕ K.Call
  Answer
    | .inl c => J.Answer c
    | .inr c => K.Answer c

/-- A program over the first of two interfaces. -/
def Prog.left {J : Interface} (K : Interface) {α : Type} : Prog J α → Prog (J.sum K) α
  | .pure a => .pure a
  | .call c next => .call (.inl c) fun x => (next x).left K

/-- A call together with its answer. -/
abbrev Event (J : Interface) := Σ c : J.Call, J.Answer c

section Sequential

variable {J : Interface} {σ α β : Type} {step : σ → (c : J.Call) → J.Answer c → σ → Prop}

/-- `Runs step s p events a t`: from the world `s` the program `p` makes the calls `events` and
returns `a` in the world `t`. -/
inductive Runs (step : σ → (c : J.Call) → J.Answer c → σ → Prop) :
    σ → Prog J α → List (Event J) → α → σ → Prop where
  | pure (s : σ) (a : α) : Runs step s (.pure a) [] a s
  | call {s s' t : σ} {c : J.Call} {next : J.Answer c → Prog J α} {x : J.Answer c}
      {events : List (Event J)} {a : α} : step s c x s' → Runs step s' (next x) events a t →
      Runs step s (.call c next) (⟨c, x⟩ :: events) a t

/-- Every run of the program from `s` ends in a result and a world that meet `Q`. -/
def wp (step : σ → (c : J.Call) → J.Answer c → σ → Prop) :
    Prog J α → (α → σ → Prop) → σ → Prop
  | .pure a, Q, s => Q a s
  | .call c next, Q, s => ∀ x s', step s c x s' → wp step (next x) Q s'

@[simp] theorem wp_pure (a : α) (Q : α → σ → Prop) (s : σ) :
    wp step (pure a : Prog J α) Q s = Q a s := rfl

@[simp] theorem wp_ask (c : J.Call) (Q : J.Answer c → σ → Prop) (s : σ) :
    wp step (Prog.ask c) Q s = ∀ x s', step s c x s' → Q x s' := rfl

/-- **Composition rule.** -/
@[simp] theorem wp_bind (p : Prog J α) (f : α → Prog J β) (Q : β → σ → Prop) (s : σ) :
    wp step (p >>= f) Q s = wp step p (fun a t => wp step (f a) Q t) s := by
  induction p generalizing s with
  | pure a => rfl
  | call c next ih =>
    change (∀ x s', step s c x s' → wp step ((next x) >>= f) Q s') = _
    simp only [ih]
    rfl

theorem wp_mono {p : Prog J α} {Q R : α → σ → Prop} {s : σ} (h : wp step p Q s)
    (hQR : ∀ a t, Q a t → R a t) : wp step p R s := by
  induction p generalizing s with
  | pure a => exact hQR _ _ h
  | call c next ih => exact fun x s' hs => ih x (h x s' hs)

/-- A program that does not use the second interface. -/
theorem wp_left {K : Interface} {step : σ → (c : (J.sum K).Call) → (J.sum K).Answer c → σ → Prop}
    (p : Prog J α) (Q : α → σ → Prop) (s : σ) :
    wp step (p.left K) Q s = wp (fun s c x t => step s (.inl c) x t) p Q s := by
  induction p generalizing s with
  | pure a => rfl
  | call c next ih =>
    change (∀ x s', step s (.inl c) x s' → wp step ((next x).left K) Q s') = _
    simp only [ih]
    rfl

/-- What holds of every result holds of those of a program. -/
theorem wp_of_forall {Q : α → σ → Prop} (h : ∀ a t, Q a t) (p : Prog J α)
    (s : σ) : wp step p Q s := by
  induction p generalizing s with
  | pure a => exact h a s
  | call c next ih => exact fun x s' _ => ih x s'

theorem wp_and {p : Prog J α} {Q R : α → σ → Prop} {s : σ} (hQ : wp step p Q s)
    (hR : wp step p R s) : wp step p (fun a t => Q a t ∧ R a t) s := by
  induction p generalizing s with
  | pure a => exact ⟨hQ, hR⟩
  | call c next ih => exact fun x s' hs => ih x (hQ x s' hs) (hR x s' hs)

/-- What `wp` promises holds of every run. -/
theorem Runs.post {p : Prog J α} {Q : α → σ → Prop} {s t : σ} {events : List (Event J)} {a : α}
    (hrun : Runs step s p events a t) (h : wp step p Q s) : Q a t := by
  induction hrun with
  | pure s a => exact h
  | call hs _ ih => exact ih (h _ _ hs)

/-- Calls that always get an answer let every program end. -/
theorem Runs.exists (htotal : ∀ s c, ∃ x s', step s c x s') (p : Prog J α) (s : σ) :
    ∃ events a t, Runs step s p events a t := by
  induction p generalizing s with
  | pure a => exact ⟨[], a, s, .pure s a⟩
  | call c next ih =>
    obtain ⟨x, s', hs⟩ := htotal s c
    obtain ⟨events, a, t, h⟩ := ih x s'
    exact ⟨_, a, t, .call hs h⟩

/-! Programs that may give up: `none` is an exception that ends the rest. -/

@[simp] theorem wp_run_pure (a : α) (Q : Option α → σ → Prop) (s : σ) :
    wp step (pure a : OptionT (Prog J) α).run Q s = Q (some a) s := rfl

@[simp] theorem wp_run_bind (p : OptionT (Prog J) α) (f : α → OptionT (Prog J) β)
    (Q : Option β → σ → Prop) (s : σ) :
    wp step (p >>= f).run Q s =
      wp step p.run (fun r t => match r with
        | some a => wp step (f a).run Q t
        | none => Q none t) s := by
  change wp step (p.run >>= _) Q s = _
  rw [wp_bind]
  congr 1
  funext r t
  cases r <;> rfl

@[simp] theorem wp_run_lift (p : Prog J α) (Q : Option α → σ → Prop) (s : σ) :
    wp step (liftM p : OptionT (Prog J) α).run Q s = wp step p (fun a t => Q (some a) t) s := by
  change wp step (p >>= fun a => pure (some a)) Q s = _
  rw [wp_bind]
  rfl

@[simp] theorem wp_run_failure (Q : Option α → σ → Prop) (s : σ) :
    wp step (failure : OptionT (Prog J) α).run Q s = Q none s := rfl

/-- The world with the list of the calls made and their answers. -/
def Traced (step : σ → (c : J.Call) → J.Answer c → σ → Prop) (s : σ × List (Event J))
    (c : J.Call) (x : J.Answer c) (t : σ × List (Event J)) : Prop :=
  step s.1 c x t.1 ∧ t.2 = s.2 ++ [⟨c, x⟩]

theorem Runs.traced {p : Prog J α} {s t : σ} {events : List (Event J)} {a : α}
    (hrun : Runs step s p events a t) (before : List (Event J)) :
    Runs (Traced step) (s, before) p events a (t, before ++ events) := by
  induction hrun generalizing before with
  | pure s a =>
    rw [List.append_nil]
    exact .pure _ _
  | @call s s' t c next x events a hs _ ih =>
    have h := ih (before ++ [⟨c, x⟩])
    rw [List.append_assoc, List.singleton_append] at h
    exact .call (⟨hs, rfl⟩ : Traced step (s, before) c x (s', before ++ [⟨c, x⟩])) h

/-- Evaluate a program with a function that answers the calls. -/
def runWith (answer : σ → (c : J.Call) → J.Answer c × σ) : Prog J α → σ → α × σ
  | .pure a, s => (a, s)
  | .call c next, s => runWith answer (next (answer s c).1) (answer s c).2

theorem Runs.of_runWith {answer : σ → (c : J.Call) → J.Answer c × σ}
    (hstep : ∀ s c, step s c (answer s c).1 (answer s c).2) (p : Prog J α) (s : σ) :
    ∃ events, Runs step s p events (runWith answer p s).1 (runWith answer p s).2 := by
  induction p generalizing s with
  | pure a => exact ⟨[], .pure _ _⟩
  | call c next ih =>
    obtain ⟨events, h⟩ := ih (answer s c).1 (answer s c).2
    exact ⟨_, .call (hstep s c) h⟩

end Sequential

section Concurrent

variable {J : Interface} {σ α β : Type} {step : σ → (c : J.Call) → J.Answer c → σ → Prop}
  {rely guar : σ → σ → Prop}

/-- The program, run next to a system that moves the world along `rely` at any time, keeps each of
its own calls within `guar` and ends in a result and a world that meet `Q`. -/
def Guarded (step : σ → (c : J.Call) → J.Answer c → σ → Prop) (rely guar : σ → σ → Prop) :
    Prog J α → (α → σ → Prop) → σ → Prop
  | .pure a, Q, s => ∀ s', rely s s' → Q a s'
  | .call c next, Q, s => ∀ s', rely s s' → ∀ x s'', step s' c x s'' →
      guar s' s'' ∧ Guarded step rely guar (next x) Q s''

theorem Guarded.mono {p : Prog J α} {Q R : α → σ → Prop} {s : σ}
    (h : Guarded step rely guar p Q s) (hQR : ∀ a t, Q a t → R a t) :
    Guarded step rely guar p R s := by
  induction p generalizing s with
  | pure a => exact fun s' hs => hQR _ _ (h s' hs)
  | call c next ih =>
    exact fun s' hr x s'' hs => ⟨(h s' hr x s'' hs).1, ih x (h s' hr x s'' hs).2⟩

theorem Guarded.stable (htrans : ∀ s t u, rely s t → rely t u → rely s u) {p : Prog J α}
    {Q : α → σ → Prop} {s t : σ} (h : Guarded step rely guar p Q s) (hr : rely s t) :
    Guarded step rely guar p Q t := by
  cases p with
  | pure a => exact fun s' hs => h s' (htrans _ _ _ hr hs)
  | call c next => exact fun s' hs => h s' (htrans _ _ _ hr hs)

/-- **Composition rule under interference.** -/
theorem Guarded.bind (hrefl : ∀ s, rely s s) {p : Prog J α} {f : α → Prog J β} {Q : β → σ → Prop}
    {s : σ} (h : Guarded step rely guar p (fun a t => Guarded step rely guar (f a) Q t) s) :
    Guarded step rely guar (p >>= f) Q s := by
  induction p generalizing s with
  | pure a => exact h s (hrefl s)
  | call c next ih =>
    exact fun s' hr x s'' hs => ⟨(h s' hr x s'' hs).1, ih x (h s' hr x s'' hs).2⟩

/-- Interference keeps the assertion. -/
def Stable (rely : σ → σ → Prop) (P : σ → Prop) : Prop := ∀ s t, rely s t → P s → P t

/-- From a world that meets `P` the program is guarded and ends in a result that meets `Q`. -/
def Triple (step : σ → (c : J.Call) → J.Answer c → σ → Prop) (rely guar : σ → σ → Prop)
    (P : σ → Prop) (p : Prog J α) (Q : α → σ → Prop) : Prop :=
  ∀ s, P s → Guarded step rely guar p Q s

theorem Triple.bind (hrefl : ∀ s, rely s s) {P : σ → Prop} {R : α → σ → Prop} {Q : β → σ → Prop}
    {p : Prog J α} {f : α → Prog J β} (h : Triple step rely guar P p R)
    (hf : ∀ a, Triple step rely guar (R a) (f a) Q) : Triple step rely guar P (p >>= f) Q :=
  fun s hs => .bind hrefl ((h s hs).mono hf)

theorem Triple.pure {P : σ → Prop} {Q : α → σ → Prop} {a : α} (hstable : Stable rely (Q a))
    (h : ∀ s, P s → Q a s) : Triple step rely guar P (Pure.pure a : Prog J α) Q :=
  fun s hs s' hr => hstable s s' hr (h s hs)

/-- One call: a step from the assertion stays within `guar` and leads to the next assertion. -/
theorem Triple.ask {P : σ → Prop} {c : J.Call} {Q : J.Answer c → σ → Prop}
    (hP : Stable rely P) (hQ : ∀ x, Stable rely (Q x))
    (hstep : ∀ s x s', P s → step s c x s' → guar s s' ∧ Q x s') :
    Triple step rely guar P (Prog.ask c) Q := by
  intro s hs s' hr x s'' hst
  obtain ⟨hg, hq⟩ := hstep s' x s'' (hP s s' hr hs) hst
  exact ⟨hg, fun t ht => hQ x s'' t ht hq⟩

theorem Triple.conseq {P P' : σ → Prop} {Q Q' : α → σ → Prop} {p : Prog J α}
    (h : Triple step rely guar P p Q) (hP : ∀ s, P' s → P s) (hQ : ∀ a s, Q a s → Q' a s) :
    Triple step rely guar P' p Q' :=
  fun s hs => (h s (hP s hs)).mono hQ

theorem Guarded.frame {F : σ → Prop} (hrely : Stable rely F) (hguar : Stable guar F)
    {p : Prog J α} {Q : α → σ → Prop} {s : σ} (h : Guarded step rely guar p Q s) (hF : F s) :
    Guarded step rely guar p (fun a t => Q a t ∧ F t) s := by
  induction p generalizing s with
  | pure a => exact fun s' hr => ⟨h s' hr, hrely s s' hr hF⟩
  | call c next ih =>
    intro s' hr x s'' hs
    obtain ⟨hg, hnext⟩ := h s' hr x s'' hs
    exact ⟨hg, ih x hnext (hguar s' s'' hg (hrely s s' hr hF))⟩

/-- **Frame rule**: what the interference and the calls of the program keep can be added. -/
theorem Triple.frame {F : σ → Prop} (hrely : Stable rely F) (hguar : Stable guar F)
    {P : σ → Prop} {Q : α → σ → Prop} {p : Prog J α} (h : Triple step rely guar P p Q) :
    Triple step rely guar (fun s => P s ∧ F s) p fun a s => Q a s ∧ F s :=
  fun s hs => (h s hs.1).frame hrely hguar hs.2

end Concurrent

/-! ## Threads -/

/-- A world, and the programs that run in it, each up to the call it is about to make. -/
structure Pool (J : Interface) (θ σ : Type) where
  world : σ
  thread : θ → Option (Prog J Unit)

namespace Pool

variable {J : Interface} {θ σ W E D : Type} [DecidableEq θ]

/-- What a system of threads is made of: what thread `t` may call (`decision` settles what the
call leaves open, `none` is a call that has to wait), the programs that may be started, and the
moves of the environment. -/
structure System (J : Interface) (θ σ W E D : Type) where
  perform : θ → σ → (c : J.Call) → D → Option (J.Answer c × σ)
  program : W → Prog J Unit
  disturb : σ → E → Option σ

/-- A thread is started on a program, makes its next call, or the environment moves. -/
inductive Label (θ W E D : Type) where
  | start (t : θ) (w : W)
  | call (t : θ) (decision : D)
  | disturb (e : E)

/-- What a call of thread `t` may answer and do, when its decision is an allowed one. -/
def System.Performs (Y : System J θ σ W E D) (allowed : σ → J.Call → D → Prop) (t : θ) (s : σ)
    (c : J.Call) (x : J.Answer c) (s' : σ) : Prop :=
  ∃ decision, allowed s c decision ∧ Y.perform t s c decision = some (x, s')

/-- One step of the system. A thread that has returned is idle and can be started again. -/
def step (Y : System J θ σ W E D) (s : Pool J θ σ) : Label θ W E D → Option (Pool J θ σ)
  | .start t w =>
      match s.thread t with
      | some (.call _ _) => none
      | _ => some { s with thread := Function.update s.thread t (some (Y.program w)) }
  | .call t decision =>
      match s.thread t with
      | some (.call c next) =>
          (Y.perform t s.world c decision).map fun r =>
            { world := r.2, thread := Function.update s.thread t (some (next r.1)) }
      | _ => none
  | .disturb e => (Y.disturb s.world e).map fun w => { s with world := w }

/-- Thread `t` is in the middle of a program. -/
def Active (s : Pool J θ σ) (t : θ) : Prop := ∃ c next, s.thread t = some (.call c next)

/-- The decisions of calls are allowed ones and the moves of the environment meet `admitted`;
the threads run as they like. -/
def Admits (allowed : σ → J.Call → D → Prop) (admitted : Pool J θ σ → E → Prop)
    (s : Pool J θ σ) : Label θ W E D → Prop
  | .start _ _ => True
  | .call t decision => ∀ c next, s.thread t = some (.call c next) → allowed s.world c decision
  | .disturb e => admitted s e

instance (s : Pool J θ σ) (t : θ) : Decidable (s.Active t) :=
  match h : s.thread t with
  | some (.call c next) => isTrue ⟨c, next, h⟩
  | some (.pure _) => isFalse fun ⟨_, _, heq⟩ => nomatch h.symm.trans heq
  | none => isFalse fun ⟨_, _, heq⟩ => nomatch h.symm.trans heq

instance {allowed : σ → J.Call → D → Prop} {admitted : Pool J θ σ → E → Prop}
    [∀ s c d, Decidable (allowed s c d)] [∀ s e, Decidable (admitted s e)]
    (s : Pool J θ σ) (l : Label θ W E D) : Decidable (Admits allowed admitted s l) :=
  match l with
  | .start _ _ => isTrue trivial
  | .call t decision =>
    match h : s.thread t with
    | some (.call c next) =>
      decidable_of_iff (allowed s.world c decision)
        ⟨fun ha _ _ heq => by cases h.symm.trans heq; exact ha, fun hall => hall c next h⟩
    | some (.pure _) => isTrue fun _ _ heq => nomatch h.symm.trans heq
    | none => isTrue fun _ _ heq => nomatch h.symm.trans heq
  | .disturb e => inferInstanceAs (Decidable (admitted s e))

theorem step_cases {Y : System J θ σ W E D} {s s' : Pool J θ σ} {l : Label θ W E D}
    (h : step Y s l = some s') :
    (∃ t w, l = .start t w ∧ s' =
      { s with thread := Function.update s.thread t (some (Y.program w)) }) ∨
    (∃ t d c next x w, l = .call t d ∧ s.thread t = some (.call c next) ∧
      Y.perform t s.world c d = some (x, w) ∧ s' =
      { world := w, thread := Function.update s.thread t (some (next x)) }) ∨
    (∃ e w, l = .disturb e ∧ Y.disturb s.world e = some w ∧ s' = { s with world := w }) := by
  cases l with
  | start t w =>
    simp only [step] at h
    split at h
    · cases h
    · exact .inl ⟨t, w, rfl, by simpa using h.symm⟩
  | call t d =>
    simp only [step] at h
    split at h
    · rename_i c next ht
      obtain ⟨⟨x, w⟩, hp, rfl⟩ := Option.map_eq_some_iff.mp h
      exact .inr (.inl ⟨t, d, c, next, x, w, rfl, ht, hp, rfl⟩)
    · cases h
  | disturb e =>
    obtain ⟨w, hw, rfl⟩ := Option.map_eq_some_iff.mp h
    exact .inr (.inr ⟨e, w, rfl, hw, rfl⟩)

/-- The world is sound, and every program in the middle of a run is guarded from here on. -/
structure Sound (Y : System J θ σ W E D) (allowed : σ → J.Call → D → Prop) (Inv : σ → Prop)
    (rely guar : θ → σ → σ → Prop) (s : Pool J θ σ) : Prop where
  inv : Inv s.world
  guarded : ∀ t p, s.thread t = some p →
    Guarded (Y.Performs allowed t) (rely t) (guar t) p (fun _ _ => True) s.world

section Rule

variable {Y : System J θ σ W E D} {Inv : σ → Prop} {rely guar : θ → σ → σ → Prop}
  {allowed : σ → J.Call → D → Prop} {admitted : Pool J θ σ → E → Prop}

theorem sound_start {s : Pool J θ σ} (h : Sound Y allowed Inv rely guar s) (t : θ) (w : W)
    (hprogram : ∀ t w s, Inv s →
      Guarded (Y.Performs allowed t) (rely t) (guar t) (Y.program w) (fun _ _ => True) s) :
    Sound Y allowed Inv rely guar
      { s with thread := Function.update s.thread t (some (Y.program w)) } where
  inv := h.inv
  guarded u p hu := by
    rcases eq_or_ne u t with rfl | hne
    · obtain rfl : Y.program w = p := by simpa using hu
      exact hprogram u w s.world h.inv
    · exact h.guarded u p (by simpa [Function.update_of_ne hne] using hu)

theorem sound_call {s : Pool J θ σ} (h : Sound Y allowed Inv rely guar s)
    (hrefl : ∀ t s, rely t s s) (htrans : ∀ t s u v, rely t s u → rely t u v → rely t s v)
    (hguar : ∀ t s s', Inv s → guar t s s' → Inv s' ∧ ∀ u, u ≠ t → rely u s s')
    {t : θ} {c : J.Call} {next : J.Answer c → Prog J Unit} {x : J.Answer c} {w : σ}
    (ht : s.thread t = some (.call c next)) (hp : Y.Performs allowed t s.world c x w) :
    Sound Y allowed Inv rely guar
      { world := w, thread := Function.update s.thread t (some (next x)) } := by
  obtain ⟨hg, hnext⟩ := h.guarded t _ ht s.world (hrefl t _) x w hp
  obtain ⟨hinv, hothers⟩ := hguar t _ _ h.inv hg
  refine ⟨hinv, fun u p hu => ?_⟩
  rcases eq_or_ne u t with rfl | hne
  · obtain rfl : next x = p := by simpa using hu
    exact hnext
  · exact (h.guarded u p (by simpa [Function.update_of_ne hne] using hu)).stable (htrans u)
      (hothers u hne)

variable (rely guar) in
/-- **Rely-guarantee rule.** Programs that are guarded from every sound world keep the world sound,
whatever the threads do and in whatever order, next to an environment whose admitted moves keep it
sound and stay within what the threads in the middle of a program rely on. -/
theorem invariant {s₀ s : Pool J θ σ} (hrun : Run (step Y) (Admits allowed admitted) s₀ s)
    (h0 : Inv s₀.world) (hidle : ∀ t, s₀.thread t = none)
    (hrefl : ∀ t s, rely t s s) (htrans : ∀ t s u v, rely t s u → rely t u v → rely t s v)
    (hprogram : ∀ t w s, Inv s →
      Guarded (Y.Performs allowed t) (rely t) (guar t) (Y.program w) (fun _ _ => True) s)
    (hguar : ∀ t s s', Inv s → guar t s s' → Inv s' ∧ ∀ u, u ≠ t → rely u s s')
    (hdisturb : ∀ e (s : Pool J θ σ) w, Inv s.world → admitted s e → Y.disturb s.world e = some w →
      Inv w ∧ ∀ t, s.Active t → rely t s.world w) : Inv s.world := by
  suffices h : Sound Y allowed Inv rely guar s from h.inv
  refine hrun.invariant (I := Sound Y allowed Inv rely guar) ⟨h0, fun t p hp => ?_⟩ ?_
  · rw [hidle t] at hp
    cases hp
  · intro s l s' hs hok hstep
    rcases step_cases hstep with ⟨t, w, rfl, rfl⟩ | ⟨t, d, c, next, x, w, rfl, ht, hp, rfl⟩ |
      ⟨e, w, rfl, he, rfl⟩
    · exact sound_start hs t w hprogram
    · exact sound_call hs hrefl htrans hguar ht ⟨d, hok c next ht, hp⟩
    · obtain ⟨hinv, hactive⟩ := hdisturb e s w hs.inv hok he
      refine ⟨hinv, fun t p hp => ?_⟩
      cases p with
      | pure a => exact fun _ _ => trivial
      | call c next => exact (hs.guarded t _ hp).stable (htrans t) (hactive t ⟨c, next, hp⟩)

end Rule

end Pool

end LocalMediaTransfer.Lib
