import LocalMediaTransfer.Server.FileWriter.System

/-!
# Numbered names over many calls

`makeNumberedFilename` scans the destination the first time it is asked about a name, and remembers
a number.  Later calls start from that number and do not scan again, whatever has happened to the
destination in between.

* `skipUsed_spec` — the first call stops at the first number that no entry uses up.
* `numbering_spec` — what one call returns and remembers.
* `remembers_after` — every name returned so far has a smaller number than the remembered one.
* `numbered_name_fresh` — **a returned name is free and new**, and none is returned only when the
  numbers are used up.
-/

set_option autoImplicit false

namespace LocalMediaTransfer

open Lib

/-- A call of `makeNumberedFilename`, with what it finds on the disk. -/
structure NumberingCall where
  files : Table ByteString DirEntry
  env : PublishEnv
  safeName : ByteString

namespace NumberingCall

def run (cfg : WriterConfig) (suffixes : Table ByteString Nat) (call : NumberingCall) :
    Table ByteString Nat × Except String (Option ByteString) :=
  makeNumberedFilename cfg call.files suffixes call.env call.safeName

/-- `usedSuffixes` of the directory scan. -/
def used (cfg : WriterConfig) (call : NumberingCall) : List Nat :=
  (call.files.entries.map (·.2)).filterMap fun e =>
    if call.env.listed e then usedSuffix ⟨cfg.ansiToWide, call.env.nameClock⟩ call.safeName e.name
    else none

/-- The number at which the search starts: the remembered one, or what the scan makes of 2. -/
def start (cfg : WriterConfig) (suffixes : Table ByteString Nat) (call : NumberingCall) : Nat :=
  match suffixes.lookup call.safeName with
  | some next => next
  | none => skipUsed (call.used cfg) (call.used cfg).length 2

end NumberingCall

/-- `stem (n)ext`. -/
def numberedName (safeName : ByteString) (number : Nat) : ByteString :=
  pathStem 46 safeName ++ ascii " (" ++ decimal number ++ ascii ")" ++ pathExtension 46 safeName

theorem numberedCandidate_eq {env : NameEnv} {safeName : ByteString}
    (hstem : pathStem 46 safeName ≠ [])
    (number : Nat) : numberedCandidate env safeName number = numberedName safeName number := by
  simp [numberedCandidate, numberedName, numberedStem, hstem]

theorem numberedName_injective (safeName : ByteString) : Function.Injective
    (numberedName safeName) :=
  fun m n h => by
    simp only [numberedName, List.append_assoc] at h
    exact decimal_injective (List.append_cancel_right (List.append_cancel_left
      (List.append_cancel_left h)))

/-! ## One call -/

/-- The loop over `usedSuffixes` ends at the first number that is not in it. -/
theorem skipUsed_spec (used : List Nat) (fuel : Nat) :
    ∀ n, (used.toFinset.filter (n ≤ ·)).card ≤ fuel →
      skipUsed used fuel n ∉ used ∧ n ≤ skipUsed used fuel n ∧
        ∀ m, n ≤ m → m < skipUsed used fuel n → m ∈ used := by
  induction fuel with
  | zero =>
    intro n hcard
    rw [Nat.le_zero, Finset.card_eq_zero, Finset.filter_eq_empty_iff] at hcard
    refine ⟨fun hmem => hcard (List.mem_toFinset.mpr hmem) le_rfl, le_rfl, fun m hle hlt => ?_⟩
    exact absurd hlt (Nat.not_lt.mpr hle)
  | succ fuel ih =>
    intro n hcard
    rw [skipUsed]
    by_cases hn : n ∈ used
    · have hfewer : (used.toFinset.filter (n + 1 ≤ ·)).card <
        (used.toFinset.filter (n ≤ ·)).card := by
        apply Finset.card_lt_card
        refine Finset.ssubset_iff_of_subset (fun m hm => ?_) |>.mpr ⟨n, ?_, ?_⟩
        · simp only [Finset.mem_filter] at hm ⊢
          exact ⟨hm.1, by omega⟩
        · simp [hn]
        · simp
      obtain ⟨hnot, hle, hall⟩ := ih (n + 1) (by omega)
      rw [if_pos (List.contains_iff_mem.mpr hn)]
      refine ⟨hnot, by omega, fun m hm hlt => ?_⟩
      rcases Nat.eq_or_lt_of_le hm with rfl | hm
      · exact hn
      · exact hall m hm hlt
    · rw [if_neg (by simpa using hn)]
      exact ⟨hn, le_rfl, fun m hle hlt => absurd hlt (Nat.not_lt.mpr hle)⟩

variable {cfg : WriterConfig} {files : Table ByteString DirEntry} {env : PublishEnv}

/-- How a search through the candidates from `first` up to `stop` may end. -/
def Searched (cfg : WriterConfig) (files : Table ByteString DirEntry) (env : PublishEnv)
    (candidate : Nat → ByteString) (first stop : Nat) : Except String (Option Nat) → Prop
  | .error what => ∃ n, first ≤ n ∧ n < stop ∧ env.candidateThrows = some (n, what)
  | .ok none => ∀ n, first ≤ n → n < stop → (findEntry cfg files (candidate n)).isSome = true
  | .ok (some n) => first ≤ n ∧ n < stop ∧ findEntry cfg files (candidate n) = none

theorem Searched.after {candidate : Nat → ByteString} {first stop : Nat}
    {result : Except String (Option Nat)}
    (hexists : ¬(findEntry cfg files (candidate first)).isNone = true)
    (h : Searched cfg files env candidate (first + 1) stop result) :
    Searched cfg files env candidate first stop result := by
  cases result with
  | error what =>
    obtain ⟨n, hle, hlt, hthrows⟩ := h
    exact ⟨n, by omega, hlt, hthrows⟩
  | ok found =>
    cases found with
    | none =>
      intro n hle hlt
      rcases Nat.eq_or_lt_of_le hle with rfl | hle
      · simpa [Option.isSome_iff_ne_none] using hexists
      · exact h n hle hlt
    | some n =>
      obtain ⟨hle, hlt, hfree⟩ := h
      exact ⟨by omega, hlt, hfree⟩

/-- The `for` loop stops at the first free candidate, unless `fs::exists` throws before. -/
theorem firstFree_spec (cfg : WriterConfig) (files : Table ByteString DirEntry) (env : PublishEnv)
    (candidate : Nat → ByteString) (fuel : Nat) : ∀ first,
    Searched cfg files env candidate first (first + fuel)
      (firstFree cfg files env candidate fuel first) := by
  induction fuel with
  | zero => exact fun first n hle hlt => absurd hlt (Nat.not_lt.mpr hle)
  | succ fuel ih =>
    intro first
    have hrest := ih (first + 1)
    rw [show first + 1 + fuel = first + (fuel + 1) by omega] at hrest
    have hfound (hfree : (findEntry cfg files (candidate first)).isNone = true) :
        Searched cfg files env candidate first (first + (fuel + 1)) (.ok (some first)) :=
      ⟨le_rfl, by omega, Option.isNone_iff_eq_none.mp hfree⟩
    rw [firstFree]
    cases hthrows : env.candidateThrows with
    | none =>
      simp only
      split_ifs with hfree
      · exact hfound hfree
      · exact hrest.after hfree
    | some fault =>
      obtain ⟨place, what⟩ := fault
      simp only
      split_ifs with hplace hfree
      · exact ⟨first, le_rfl, by omega, by rw [hthrows, hplace]⟩
      · exact hfound hfree
      · exact hrest.after hfree

variable {suffixes : Table ByteString Nat} {call : NumberingCall}

/-- What one call returns, and what it remembers. -/
theorem numbering_spec (cfg : WriterConfig) (suffixes : Table ByteString Nat)
    (call : NumberingCall) :
    ∃ result, Searched cfg call.files call.env
        (numberedCandidate ⟨cfg.ansiToWide, call.env.nameClock⟩ call.safeName)
        (call.start cfg suffixes) (max (call.start cfg suffixes) 1000000) result ∧
      (call.run cfg suffixes).2 = result.map
        (Option.map (numberedCandidate ⟨cfg.ansiToWide, call.env.nameClock⟩ call.safeName)) ∧
      (call.run cfg suffixes).1.lookup call.safeName =
        some (match result with
          | .ok (some number) => number + 1
          | _ => call.start cfg suffixes) ∧
      ∀ name ≠ call.safeName, (call.run cfg suffixes).1.lookup name = suffixes.lookup name := by
  have hsearched := firstFree_spec cfg call.files call.env
    (numberedCandidate ⟨cfg.ansiToWide, call.env.nameClock⟩ call.safeName)
    (1000000 - call.start cfg suffixes) (call.start cfg suffixes)
  rw [show call.start cfg suffixes + (1000000 - call.start cfg suffixes) =
    max (call.start cfg suffixes) 1000000 by omega] at hsearched
  have hrun : call.run cfg suffixes =
      match firstFree cfg call.files call.env
        (numberedCandidate ⟨cfg.ansiToWide, call.env.nameClock⟩ call.safeName)
        (1000000 - call.start cfg suffixes) (call.start cfg suffixes) with
      | .error what => (suffixes.insert call.safeName (call.start cfg suffixes), .error what)
      | .ok none => (suffixes.insert call.safeName (call.start cfg suffixes), .ok none)
      | .ok (some number) =>
          ((suffixes.insert call.safeName (call.start cfg suffixes)).insert call.safeName
            (number + 1),
            .ok (some (numberedCandidate
              ⟨cfg.ansiToWide, call.env.nameClock⟩ call.safeName number))) :=
    rfl
  refine ⟨_, hsearched, ?_⟩
  rw [hrun]
  cases firstFree cfg call.files call.env
    (numberedCandidate ⟨cfg.ansiToWide, call.env.nameClock⟩ call.safeName)
    (1000000 - call.start cfg suffixes) (call.start cfg suffixes) with
  | error what =>
    exact ⟨rfl, AList.lookup_insert _, fun name hne => AList.lookup_insert_ne hne⟩
  | ok found =>
    cases found with
    | none => exact ⟨rfl, AList.lookup_insert _, fun name hne => AList.lookup_insert_ne hne⟩
    | some number =>
      exact ⟨rfl, AList.lookup_insert _, fun name hne =>
        (AList.lookup_insert_ne hne).trans (AList.lookup_insert_ne hne)⟩

/-- A call remembers a number that is no smaller, and greater than the number of the name it
returns. -/
theorem run_remembers (cfg : WriterConfig) {start : Nat}
    (hlookup : suffixes.lookup call.safeName = some start) :
    ∃ next, (call.run cfg suffixes).1.lookup call.safeName = some next ∧ start ≤ next := by
  obtain ⟨result, hsearched, -, hnext, -⟩ := numbering_spec cfg suffixes call
  have hstart : call.start cfg suffixes = start := by
    rw [NumberingCall.start, hlookup]
  rw [hstart] at hsearched hnext
  refine ⟨_, hnext, ?_⟩
  match result, hsearched with
  | .error _, _ => exact le_rfl
  | .ok none, _ => exact le_rfl
  | .ok (some number), hsearched =>
    have := hsearched.1
    simp only
    omega

theorem run_returned {name : ByteString} (hstem : pathStem 46 call.safeName ≠ [])
    (hreturned : (call.run cfg suffixes).2 = .ok (some name)) :
    ∃ number, call.start cfg suffixes ≤ number ∧ number < 1000000 ∧
      name = numberedName call.safeName number ∧ findEntry cfg call.files name = none ∧
      (call.run cfg suffixes).1.lookup call.safeName = some (number + 1) := by
  obtain ⟨result, hsearched, hresult, hnext, -⟩ := numbering_spec cfg suffixes call
  rw [hresult] at hreturned
  match result, hsearched with
  | .error _, _ => cases hreturned
  | .ok none, _ => cases hreturned
  | .ok (some number), hsearched =>
    obtain ⟨hle, hlt, hfree⟩ := hsearched
    obtain rfl : numberedCandidate _ _ number = name := by
      simpa [Except.map] using hreturned
    exact ⟨number, hle, by omega, numberedCandidate_eq hstem number, hfree, hnext⟩

/-! ## Many calls -/

/-- `m_nextFilenameSuffix` after the calls of the process so far. -/
def suffixesAfter (cfg : WriterConfig) (history : List NumberingCall) : Table ByteString Nat :=
  history.foldl (fun suffixes call => (call.run cfg suffixes).1) ∅

/-- An earlier call for a name returned a numbered form of it. -/
def ReturnedBefore (cfg : WriterConfig) (history : List NumberingCall)
    (safeName name : ByteString) : Prop :=
  ∃ before call after, history = before ++ call :: after ∧ call.safeName = safeName ∧
    (call.run cfg (suffixesAfter cfg before)).2 = .ok (some name)

theorem suffixesAfter_append (history : List NumberingCall) :
    suffixesAfter cfg (history ++ [call]) = (call.run cfg (suffixesAfter cfg history)).1 := by
  rw [suffixesAfter, List.foldl_append]
  rfl

theorem returnedBefore_append {history : List NumberingCall} {safeName name : ByteString}
    (h : ReturnedBefore cfg (history ++ [call]) safeName name) :
    ReturnedBefore cfg history safeName name ∨
      call.safeName = safeName ∧ (call.run cfg (suffixesAfter cfg history)).2 =
        .ok (some name) := by
  obtain ⟨before, earlier, after, hsplit, hname, hreturned⟩ := h
  rcases List.eq_nil_or_concat after with rfl | ⟨rest, last, rfl⟩
  · obtain ⟨rfl, hlast⟩ := List.append_inj' hsplit rfl
    obtain rfl := List.singleton_inj.mp hlast
    exact .inr ⟨hname, hreturned⟩
  · rw [List.concat_eq_append, ← List.cons_append, ← List.append_assoc] at hsplit
    obtain ⟨hrest, -⟩ := List.append_inj' hsplit rfl
    exact .inl ⟨before, earlier, rest, hrest, hname, hreturned⟩

/-- What the remembered numbers say about the calls so far. -/
structure NumbersRemembered (cfg : WriterConfig) (history : List NumberingCall)
    (suffixes : Table ByteString Nat) : Prop where
  two_le : ∀ safeName start, suffixes.lookup safeName = some start → 2 ≤ start
  returned : ∀ safeName name, pathStem 46 safeName ≠ [] → ReturnedBefore cfg history safeName name →
    ∃ number start, name = numberedName safeName number ∧ suffixes.lookup safeName = some start ∧
      number < start

theorem NumbersRemembered.two_le_start {history : List NumberingCall}
    (h : NumbersRemembered cfg history suffixes) (call : NumberingCall) :
    2 ≤ call.start cfg suffixes := by
  unfold NumberingCall.start
  split
  · rename_i next hlookup
    exact h.two_le _ _ hlookup
  · exact (skipUsed_spec _ _ 2 (Finset.card_filter_le _ _ |>.trans (List.toFinset_card_le _))).2.1

theorem remembers_run {history : List NumberingCall}
    (h : NumbersRemembered cfg history (suffixesAfter cfg history)) :
    NumbersRemembered cfg (history ++ [call]) (suffixesAfter cfg (history ++ [call])) := by
  have hstart := h.two_le_start call
  obtain ⟨result, hsearched, -, hnext, hother⟩ := numbering_spec cfg
    (suffixesAfter cfg history) call
  rw [suffixesAfter_append]
  refine ⟨fun safeName start hlookup => ?_, fun safeName name hstem hreturned => ?_⟩
  · by_cases hname : safeName = call.safeName
    · subst hname
      rw [hnext, Option.some.injEq] at hlookup
      subst hlookup
      match result, hsearched with
      | .error _, _ => exact hstart
      | .ok none, _ => exact hstart
      | .ok (some number), hsearched =>
        have := hsearched.1
        simp only
        omega
    · exact h.two_le _ _ (by rwa [hother _ hname] at hlookup)
  · rcases returnedBefore_append hreturned with hearlier | ⟨rfl, hnow⟩
    · obtain ⟨number, start, hnumber, hlookup, hlt⟩ := h.returned _ _ hstem hearlier
      by_cases hname : safeName = call.safeName
      · subst hname
        obtain ⟨next, hnext, hle⟩ := run_remembers cfg hlookup
        exact ⟨number, next, hnumber, hnext, by omega⟩
      · exact ⟨number, start, hnumber, by rwa [hother _ hname], hlt⟩
    · obtain ⟨number, -, -, hnumber, -, hnext⟩ := run_returned hstem hnow
      exact ⟨number, number + 1, hnumber, hnext, Nat.lt_succ_self number⟩

/-- Every name returned so far has a smaller number than the remembered one. -/
theorem remembers_after (cfg : WriterConfig) (history : List NumberingCall) :
    NumbersRemembered cfg history (suffixesAfter cfg history) := by
  induction history using List.reverseRecOn with
  | nil =>
    refine ⟨fun safeName start hlookup => ?_, fun safeName name hstem hreturned => ?_⟩
    · cases hlookup
    · obtain ⟨before, call, after, hsplit, -⟩ := hreturned
      simp at hsplit
  | append_singleton history call ih => exact remembers_run ih

/-- **Numbered names.**  After any calls, a call for a name with a stem returns a free numbered form
of it that no earlier call for the name has returned, or none when every form from the remembered
number on exists; it fails only where `fs::exists` throws.  A first call remembers the first number
from 2 on that no entry uses up. -/
theorem numbered_name_fresh (cfg : WriterConfig) (history : List NumberingCall)
    (call : NumberingCall)
    (hstem : pathStem 46 call.safeName ≠ []) :
    let suffixes := suffixesAfter cfg history
    let start := call.start cfg suffixes
    (match (call.run cfg suffixes).2 with
      | .ok (some name) => ∃ number, 2 ≤ number ∧ number < 1000000 ∧
          name = numberedName call.safeName number ∧ findEntry cfg call.files name = none ∧
          ¬ReturnedBefore cfg history call.safeName name
      | .ok none => ∀ number, start ≤ number → number < 1000000 →
          (findEntry cfg call.files (numberedName call.safeName number)).isSome = true
      | .error what => ∃ number, start ≤ number ∧ number < 1000000 ∧
          call.env.candidateThrows = some (number, what)) ∧
      (suffixes.lookup call.safeName = none → start ∉ call.used cfg ∧
        ∀ number, 2 ≤ number → number < start → number ∈ call.used cfg) := by
  intro suffixes start
  have hremembers := remembers_after cfg history
  refine ⟨?_, fun hfirst => ?_⟩
  · cases hresult : (call.run cfg suffixes).2 with
    | error what =>
      obtain ⟨result, hsearched, hreturned, -, -⟩ := numbering_spec cfg suffixes call
      rw [hresult] at hreturned
      match result, hsearched with
      | .error _, ⟨number, hle, hlt, hthrows⟩ =>
        cases hreturned
        exact ⟨number, hle, by omega, hthrows⟩
      | .ok _, _ => cases hreturned
    | ok found =>
      cases found with
      | none =>
        obtain ⟨result, hsearched, hreturned, -, -⟩ := numbering_spec cfg suffixes call
        rw [hresult] at hreturned
        match result, hsearched with
        | .error _, _ => cases hreturned
        | .ok (some _), _ => cases hreturned
        | .ok none, hsearched =>
          intro number hle hlt
          rw [← numberedCandidate_eq hstem]
          exact hsearched number hle (by omega)
      | some name =>
        obtain ⟨number, hle, hlt, hname, hfree, -⟩ := run_returned hstem hresult
        have htwo := hremembers.two_le_start call
        refine ⟨number, htwo.trans hle, hlt, hname, hfree, fun hearlier => ?_⟩
        obtain ⟨earlier, next, heq, hlookup, hless⟩ := hremembers.returned _ _ hstem hearlier
        have hstart : start = next := by
          simp only [start, NumberingCall.start, suffixes, hlookup]
        have hsame := numberedName_injective _ (heq.symm.trans hname)
        omega
  · obtain ⟨hnot, -, hall⟩ := skipUsed_spec (call.used cfg) (call.used cfg).length 2
      ((Finset.card_filter_le _ _).trans (List.toFinset_card_le _))
    have hstart : start = skipUsed (call.used cfg) (call.used cfg).length 2 := by
      simp only [start, NumberingCall.start, hfirst]
    rw [hstart]
    exact ⟨hnot, hall⟩

/-- A destination with two files, of which one has been numbered. -/
def sampleNumbering : NumberingCall where
  files := ((∅ : Table ByteString DirEntry).insert (ascii "a.txt") ⟨ascii "a.txt", some []⟩).insert
    (ascii "a (2).txt") ⟨ascii "a (2).txt", some []⟩
  env := {}
  safeName := ascii "a.txt"

/-- A second call, before the file of the first one is published. -/
theorem numbered_name_fresh_again :
    ∃ number, 2 ≤ number ∧ number < 1000000 ∧ ascii "a (4).txt" =
      numberedName (ascii "a.txt") number ∧
      findEntry (sampleConfig .keepBoth) sampleNumbering.files (ascii "a (4).txt") = none ∧
      ¬ReturnedBefore (sampleConfig .keepBoth) [sampleNumbering] (ascii "a.txt")
        (ascii "a (4).txt") := by
  have h := (numbered_name_fresh (sampleConfig .keepBoth) [sampleNumbering] sampleNumbering
    (by decide)).1
  have hresult : (sampleNumbering.run (sampleConfig .keepBoth)
      (suffixesAfter (sampleConfig .keepBoth) [sampleNumbering])).2 =
        .ok (some (ascii "a (4).txt")) := by
    decide
  rw [hresult] at h
  exact h

end LocalMediaTransfer
