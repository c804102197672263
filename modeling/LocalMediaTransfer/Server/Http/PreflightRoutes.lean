import LocalMediaTransfer.Server.Inventory.Preflight
import LocalMediaTransfer.Server.Security.NativeSession.Model

/-!
# The preflight routes

Model of `/upload/preflight` and `/upload/preflight/verify` (`HttpServer.cpp`) from the parsed body
on. Both answer entry by entry and give up at the first entry that cannot be answered; the second
one marks a skipped file of a native transfer as it goes.

What `authorizeUploadFile` and the search of the inventory answer is an input.  It is a function of
the entry, since the entries of an approved manifest have different IDs.

* `handleEntries_served` — the reply when every entry is answered.
* `handle_status_iff` — when a request is accepted.
* `handle_marked` — what a request marks, accepted or not.
-/

set_option autoImplicit false

namespace LocalMediaTransfer.PreflightRoute

/-- An entry of `files`; the metadata request has no `sha256`. -/
structure Entry where
  id : ByteString
  name : ByteString
  size : Nat
  sha256 : ByteString := []
  deriving DecidableEq

/-- The answer of `authorizeUploadFile`, and what the search finds; `none` is an exception. -/
structure Answer (ρ : Type) where
  authorized : Bool
  found : Option ρ

/-- What a request meets. -/
structure Request (ρ : Type) where
  authorized : Bool
  inventoryHealthy : Bool
  /-- `inventoryHealthy` in the `catch` block. -/
  healthyAfter : Bool
  answer : Entry → Answer ρ

/-- The status, the `files` of the body, and the IDs of the `markFileTerminal` calls. -/
structure Reply (ι : Type) where
  status : Nat := 200
  files : List ι := []
  marked : List ByteString := []

/-- What tells the two loops apart. -/
structure Route (ρ ι : Type) where
  valid : Entry → Bool
  item : Entry → ρ → ι
  terminal : ρ → Bool

/-- The status of the `catch` block. -/
def exceptionStatus (healthy : Bool) : Nat := if healthy then 400 else 503

/-- `lmt::TransferLimits::MaxQueuedFiles`. -/
def maxQueuedFiles : Nat := 1000

variable {ρ ι : Type} (route : Route ρ ι) (request : Request ρ)

def handleEntries : Reply ι → List Entry → Reply ι
  | reply, [] => reply
  | reply, entry :: rest =>
      if !route.valid entry then
        { reply with status := exceptionStatus request.healthyAfter, files := [] }
      else if !(request.answer entry).authorized then { reply with status := 403, files := [] }
      else
        match (request.answer entry).found with
        | none => { reply with status := exceptionStatus request.healthyAfter, files := [] }
        | some found =>
            handleEntries
              { reply with
                files := reply.files ++ [route.item entry found]
                marked := if route.terminal found then reply.marked ++
                  [entry.id] else reply.marked }
              rest

def handle (entries : List Entry) : Reply ι :=
  if !request.authorized then { status := 403 }
  else if !request.inventoryHealthy then { status := 503 }
  else if maxQueuedFiles < entries.length then
    { status := exceptionStatus request.healthyAfter }
  else handleEntries route request {} entries

/-- `/upload/preflight`: an item says whether the file is to be hashed. -/
def metadataRoute : Route Bool (ByteString × Bool) where
  valid entry := !entry.id.isEmpty && !entry.name.isEmpty
  item entry candidate := (entry.id, candidate)
  terminal _ := false

/-- An item of the second reply; its members `action` and `verification` are the disposition. -/
structure VerifiedFile where
  id : ByteString
  disposition : Preflight.PreflightDisposition
  filename : ByteString

/-- `/upload/preflight/verify`, of a native transfer or of another client. -/
def verifyRoute (nativeTransfer : Bool) : Route Preflight.PreflightResult VerifiedFile where
  valid entry :=
    !entry.id.isEmpty && !entry.name.isEmpty && isHex (entry.sha256.map toLower) 64
  item entry result := ⟨entry.id, result.disposition, result.filename⟩
  terminal result := nativeTransfer && result.disposition == .skip

/-! ## The loop -/

variable {route request} {reply : Reply ι} {entries : List Entry}

/-- The receiver has an answer for the entry. -/
def Answer.Given (answer : Answer ρ) : Prop :=
  answer.authorized = true ∧ answer.found.isSome = true

/-- The loop gets past the entry. -/
def Serves (route : Route ρ ι) (request : Request ρ) (entry : Entry) : Prop :=
  route.valid entry = true ∧ (request.answer entry).Given

theorem exceptionStatus_ne_ok (healthy : Bool) : exceptionStatus healthy ≠ 200 := by
  cases healthy <;> decide

/-- **The reply** when every entry is answered. -/
theorem handleEntries_served {result : Entry → ρ}
    (h : ∀ e ∈ entries, route.valid e = true ∧ (request.answer e).authorized = true ∧
      (request.answer e).found = some (result e)) :
    handleEntries route request reply entries =
      { status := reply.status
        files := reply.files ++ entries.map fun e => route.item e (result e)
        marked := reply.marked ++
          (entries.filter fun e => route.terminal (result e)).map (·.id) } := by
  induction entries generalizing reply with
  | nil => simp [handleEntries]
  | cons entry rest ih =>
    obtain ⟨⟨hvalid, hauthorized, hfound⟩, hrest⟩ := List.forall_mem_cons.mp h
    rw [handleEntries, hvalid, hauthorized, hfound]
    simp only [Bool.not_true, Bool.false_eq_true, if_false]
    rw [ih hrest]
    by_cases hterminal : route.terminal (result entry) = true <;> simp [hterminal]

theorem handleEntries_refused (h : ¬∀ e ∈ entries, Serves route request e) :
    (handleEntries route request reply entries).status ≠ 200 := by
  induction entries generalizing reply with
  | nil => exact absurd (List.forall_mem_nil _) h
  | cons entry rest ih =>
    rw [handleEntries]
    split
    · exact exceptionStatus_ne_ok _
    · rename_i hvalid
      split
      · exact show (403 : Nat) ≠ 200 by decide
      · rename_i hauthorized
        split
        · exact exceptionStatus_ne_ok _
        · rename_i found hfound
          refine ih fun hrest => h (List.forall_mem_cons.mpr ⟨⟨?_, ?_, ?_⟩, hrest⟩)
          · simpa using hvalid
          · simpa using hauthorized
          · exact Option.isSome_iff_exists.mpr ⟨found, hfound⟩

/-- Only an entry whose search says so is marked, however the loop ends. -/
theorem handleEntries_marked {id : ByteString}
    (h : id ∈ (handleEntries route request reply entries).marked) :
    id ∈ reply.marked ∨ ∃ e ∈ entries, e.id = id ∧
      ∃ found, (request.answer e).found = some found ∧ route.terminal found = true := by
  induction entries generalizing reply with
  | nil => exact .inl h
  | cons entry rest ih =>
    rw [handleEntries] at h
    split at h
    · exact .inl h
    · split at h
      · exact .inl h
      · split at h
        · exact .inl h
        · rename_i found hfound
          rcases ih h with hmarked | ⟨e, he, hid, hterminal⟩
          · dsimp only at hmarked
            split at hmarked
            · rename_i hterminal
              rcases List.mem_append.mp hmarked with hmarked | hmarked
              · exact .inl hmarked
              · exact .inr ⟨entry, List.mem_cons_self .., (List.mem_singleton.mp hmarked).symm,
                  found, hfound, hterminal⟩
            · exact .inl hmarked
          · exact .inr ⟨e, List.mem_cons_of_mem _ he, hid, hterminal⟩

/-! ## A request -/

/-- **A request is accepted** when it is authorized, the inventory is healthy, and every entry of a
list within the limit is answered. -/
theorem handle_status_iff :
    (handle route request entries).status = 200 ↔
      request.authorized = true ∧ request.inventoryHealthy = true ∧
        entries.length ≤ maxQueuedFiles ∧ ∀ e ∈ entries, Serves route request e := by
  unfold handle
  split
  · rename_i hauthorized
    have hno : request.authorized = false := by simpa using hauthorized
    simp [hno]
  · rename_i hauthorized
    have hyes : request.authorized = true := by simpa using hauthorized
    split
    · rename_i hhealthy
      have hno : request.inventoryHealthy = false := by simpa using hhealthy
      simp [hno]
    · rename_i hhealthy
      have hhealthy : request.inventoryHealthy = true := by simpa using hhealthy
      split
      · rename_i hlength
        refine iff_of_false (exceptionStatus_ne_ok _) fun h => ?_
        exact absurd h.2.2.1 (Nat.not_le.mpr hlength)
      · rename_i hlength
        constructor
        · intro hstatus
          refine ⟨hyes, hhealthy, Nat.not_lt.mp hlength, ?_⟩
          by_contra hno
          exact handleEntries_refused hno hstatus
        · rintro ⟨-, -, -, hserves⟩
          rcases entries with - | ⟨first, rest⟩
          · rfl
          · have hfirst := (hserves first (List.mem_cons_self ..)).2.2
            obtain ⟨found, -⟩ := Option.isSome_iff_exists.mp hfirst
            have hserved : ∀ e ∈ first :: rest, route.valid e = true ∧
                (request.answer e).authorized = true ∧
                (request.answer e).found = some ((request.answer e).found.getD found) := by
              intro e he
              obtain ⟨other, hother⟩ := Option.isSome_iff_exists.mp (hserves e he).2.2
              exact ⟨(hserves e he).1, (hserves e he).2.1, by rw [hother, Option.getD_some]⟩
            rw [handleEntries_served hserved]

/-- The reply to an accepted request. -/
theorem handle_served {result : Entry → ρ} (h : (handle route request entries).status = 200)
    (hresult : ∀ e ∈ entries, ∀ found, (request.answer e).found = some found → found = result e) :
    handle route request entries =
      { files := entries.map fun e => route.item e (result e)
        marked := (entries.filter fun e => route.terminal (result e)).map (·.id) } := by
  obtain ⟨hauthorized, hhealthy, hlength, hserves⟩ := handle_status_iff.mp h
  have hserved : ∀ e ∈ entries, route.valid e = true ∧ (request.answer e).authorized = true ∧
      (request.answer e).found = some (result e) := by
    intro e he
    obtain ⟨found, hfound⟩ := Option.isSome_iff_exists.mp (hserves e he).2.2
    exact ⟨(hserves e he).1, (hserves e he).2.1, hresult e he found hfound ▸ hfound⟩
  rw [handle, hauthorized, hhealthy, if_neg (by simp), if_neg (by simp),
    if_neg (Nat.not_lt.mpr hlength), handleEntries_served hserved]
  simp

/-- What a request marks, accepted or not. -/
theorem handle_marked {id : ByteString} (h : id ∈ (handle route request entries).marked) :
    ∃ e ∈ entries, e.id = id ∧
      ∃ found, (request.answer e).found = some found ∧ route.terminal found = true := by
  unfold handle at h
  split at h
  · cases h
  · split at h
    · cases h
    · split at h
      · cases h
      · rcases handleEntries_marked h with hnil | hentry
        · cases hnil
        · exact hentry

end LocalMediaTransfer.PreflightRoute
