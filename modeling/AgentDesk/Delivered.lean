/-
# The table of delivery outcomes

`src/db/session-db.ts`: every session's `inbound.db` has a `delivered` table
with the outcome of each outbound row the host has tried. A row is written as
`delivered`, or as `failed` with the attempts made and the time of the next
one; every update is gated on `status = 'failed'`. `scripts/dlq.ts` requeues
failed rows by hand.

Times are whole seconds, as `datetime('now')` has them.

Key theorems: `find_markDelivered`, `find_markDeliveryFailed`, `find_requeue`,
`markDelivered_keeps`, `markDeliveryFailed_keeps`, `requeue_keeps`,
`isDelivered_markDelivered_iff`, `isDelivered_markDeliveryFailed_iff`, `isDelivered_requeue_iff`.
-/
import AgentDesk.Table

namespace AgentDesk

inductive DeliveryStatus where
  | delivered | failed
  deriving DecidableEq, Repr

/-- A row of `delivered`. -/
structure DeliveredRow where
  messageOutId : String
  platformMessageId : Option String
  status : DeliveryStatus
  deliveredAt : ℕ
  attempts : ℕ
  nextRetryAt : Option ℕ
  deriving DecidableEq, Repr

/-- Attempts before the row waits for the operator, and the seconds between them. -/
def deliveryMaxAttempts : ℕ := 10

def deliveryBackoffScheduleSec : List ℕ := [60, 300, 1800, 7200, 21600]

/-- The outcome recorded for a message. -/
def outcomeOf (t : List DeliveredRow) (id : String) : Option DeliveredRow :=
  Table.find DeliveredRow.messageOutId t id

/-- Delivered, exhausted, parked, or its retry window has not opened. -/
def DeliveredRow.undeliverable (r : DeliveredRow) (maxAttempts now : ℕ) : Bool :=
  r.status = .delivered ||
    (r.status = .failed && (decide (maxAttempts ≤ r.attempts) || r.nextRetryAt.isNone ||
      r.nextRetryAt.any (now < ·)))

def getUndeliverableIds (t : List DeliveredRow) (maxAttempts now : ℕ) : List String :=
  (t.filter (·.undeliverable maxAttempts now)).map (·.messageOutId)

def markDelivered (t : List DeliveredRow) (messageOutId : String) (platformMessageId : Option String)
    (now : ℕ) : List DeliveredRow :=
  Table.upsert DeliveredRow.messageOutId t ⟨messageOutId, platformMessageId, .delivered, now, 0, none⟩
    fun r =>
      -- WHERE delivered.status = 'failed'; the attempts stay as a record
      if r.status = .failed then
        { r with platformMessageId := platformMessageId, status := .delivered, deliveredAt := now }
      else r

def getDeliveryAttempts (t : List DeliveredRow) (messageOutId : String) : ℕ :=
  match outcomeOf t messageOutId with
  | some r => if r.status = .failed then r.attempts else 0
  | none => 0

def markDeliveryFailed (t : List DeliveredRow) (messageOutId : String) (attempts : ℕ)
    (backoffSec : Option ℕ) (now : ℕ) : List DeliveredRow :=
  Table.upsert DeliveredRow.messageOutId t
    ⟨messageOutId, none, .failed, now, attempts, backoffSec.map (now + ·)⟩
    fun r =>
      if r.status = .failed then
        { r with attempts := attempts, deliveredAt := now, nextRetryAt := backoffSec.map (now + ·) }
      else r

/-- The table after a requeue, and whether a failed row was reset. -/
def requeueFailedDelivery (t : List DeliveredRow) (messageOutId : String) (now : ℕ) :
    List DeliveredRow × Bool :=
  (Table.update DeliveredRow.messageOutId t messageOutId fun r =>
      if r.status = .failed then { r with attempts := 0, nextRetryAt := some now } else r,
   (outcomeOf t messageOutId).any (·.status = .failed))

/-! ### Reading back -/

/-- A row may be tried: nothing is recorded, or a failure whose retry is due. -/
def Due (r : Option DeliveredRow) (now : ℕ) : Prop :=
  ∀ row, r = some row → row.undeliverable deliveryMaxAttempts now = false

theorem undeliverable_false_iff {r : DeliveredRow} {m now : ℕ} :
    r.undeliverable m now = false ↔
      r.status = .failed ∧ r.attempts < m ∧ ∃ t, r.nextRetryAt = some t ∧ t ≤ now := by
  obtain ⟨id, pid, status, at', attempts, next⟩ := r
  cases status <;> cases next <;> simp [DeliveredRow.undeliverable]

theorem Due.mono {r : Option DeliveredRow} {now now' : ℕ} (h : Due r now) (hle : now ≤ now') :
    Due r now' := by
  intro row hrow
  obtain ⟨hf, hlt, t, ht, htn⟩ := undeliverable_false_iff.mp (h row hrow)
  exact undeliverable_false_iff.mpr ⟨hf, hlt, t, ht, Nat.le_trans htn hle⟩

theorem Due.attempts_lt {t : List DeliveredRow} {id : String} {now : ℕ} (h : Due (outcomeOf t id) now) :
    getDeliveryAttempts t id < deliveryMaxAttempts := by
  unfold getDeliveryAttempts
  cases hr : outcomeOf t id with
  | none => decide
  | some row =>
    obtain ⟨hf, hlt, -⟩ := undeliverable_false_iff.mp (h row hr)
    simpa [hf] using hlt

theorem due_of_not_mem {t : List DeliveredRow} {id : String} {now : ℕ}
    (h : id ∉ getUndeliverableIds t deliveryMaxAttempts now) : Due (outcomeOf t id) now := by
  intro row hrow
  obtain ⟨hmem, hid⟩ := Table.find_spec hrow
  by_contra hne
  refine h (List.mem_map.mpr ⟨row, List.mem_filter.mpr ⟨hmem, ?_⟩, hid⟩)
  simpa using hne

theorem find_markDelivered (t : List DeliveredRow) (id id' : String) (pid : Option String) (now : ℕ) :
    outcomeOf (markDelivered t id pid now) id' =
      if id' = id then
        some (((outcomeOf t id).map fun r =>
          if r.status = .failed then
            { r with platformMessageId := pid, status := .delivered, deliveredAt := now }
          else r).getD ⟨id, pid, .delivered, now, 0, none⟩)
      else outcomeOf t id' := by
  unfold outcomeOf markDelivered
  rw [Table.find_upsert fun r => by split <;> rfl]

theorem find_markDeliveryFailed (t : List DeliveredRow) (id id' : String) (n : ℕ) (b : Option ℕ) (now : ℕ) :
    outcomeOf (markDeliveryFailed t id n b now) id' =
      if id' = id then
        some (((outcomeOf t id).map fun r =>
          if r.status = .failed then
            { r with attempts := n, deliveredAt := now, nextRetryAt := b.map (now + ·) }
          else r).getD ⟨id, none, .failed, now, n, b.map (now + ·)⟩)
      else outcomeOf t id' := by
  unfold outcomeOf markDeliveryFailed
  rw [Table.find_upsert fun r => by split <;> rfl]

theorem find_requeue (t : List DeliveredRow) (id id' : String) (now : ℕ) :
    outcomeOf (requeueFailedDelivery t id now).1 id' =
      if id' = id then
        (outcomeOf t id).map fun r =>
          if r.status = .failed then { r with attempts := 0, nextRetryAt := some now } else r
      else outcomeOf t id' := by
  unfold outcomeOf requeueFailedDelivery
  simp only
  rw [Table.find_update fun r => by split <;> rfl]

/-! ### `delivered` is absorbing -/

/-- The message is recorded as delivered. -/
def IsDelivered (t : List DeliveredRow) (id : String) : Prop :=
  ∃ r, outcomeOf t id = some r ∧ r.status = .delivered

theorem isDelivered_markDelivered (t : List DeliveredRow) (id : String) (pid : Option String) (now : ℕ) :
    IsDelivered (markDelivered t id pid now) id := by
  refine ⟨_, by rw [find_markDelivered, if_pos rfl], ?_⟩
  cases outcomeOf t id with
  | none => rfl
  | some r =>
    by_cases hs : r.status = .failed
    · simp [hs]
    · cases hr : r.status
      · simp [hr]
      · exact (hs hr).elim

theorem markDelivered_keeps {t : List DeliveredRow} {id : String} (h : IsDelivered t id) (id' : String)
    (pid : Option String) (now : ℕ) : IsDelivered (markDelivered t id' pid now) id := by
  by_cases he : id = id'
  · subst he
    exact isDelivered_markDelivered t id pid now
  · unfold IsDelivered
    rw [find_markDelivered, if_neg he]
    exact h

/-- A failure reported for a delivered row changes nothing. -/
theorem markDeliveryFailed_keeps {t : List DeliveredRow} {id : String} (h : IsDelivered t id) (id' : String)
    (n : ℕ) (b : Option ℕ) (now : ℕ) : IsDelivered (markDeliveryFailed t id' n b now) id := by
  obtain ⟨r, hr, hs⟩ := h
  refine ⟨r, ?_, hs⟩
  rw [find_markDeliveryFailed]
  split
  · rename_i he
    subst he
    simp [hr, hs]
  · exact hr

theorem requeue_keeps {t : List DeliveredRow} {id : String} (h : IsDelivered t id) (id' : String) (now : ℕ) :
    IsDelivered (requeueFailedDelivery t id' now).1 id := by
  obtain ⟨r, hr, hs⟩ := h
  refine ⟨r, ?_, hs⟩
  rw [find_requeue]
  split
  · rename_i he
    subst he
    simp [hr, hs]
  · exact hr

/-! ### Only a delivery delivers -/

theorem isDelivered_markDelivered_iff {t : List DeliveredRow} {id id' : String} {pid : Option String} {now : ℕ} :
    IsDelivered (markDelivered t id' pid now) id ↔ id = id' ∨ IsDelivered t id := by
  constructor
  · intro h
    by_cases he : id = id'
    · exact .inl he
    · unfold IsDelivered at h
      rw [find_markDelivered, if_neg he] at h
      exact .inr h
  · rintro (rfl | h)
    · exact isDelivered_markDelivered t id pid now
    · exact markDelivered_keeps h id' pid now

theorem isDelivered_markDeliveryFailed_iff {t : List DeliveredRow} {id id' : String} {n : ℕ} {b : Option ℕ} {now : ℕ} :
    IsDelivered (markDeliveryFailed t id' n b now) id ↔ IsDelivered t id := by
  refine ⟨?_, fun h => markDeliveryFailed_keeps h id' n b now⟩
  rintro ⟨r, hr, hs⟩
  rw [find_markDeliveryFailed] at hr
  split at hr
  · rename_i he
    subst he
    have hrow := Option.some.inj hr
    cases ho : outcomeOf t id with
    | none =>
      rw [ho] at hrow
      rw [← hrow] at hs
      cases hs
    | some r₀ =>
      rw [ho, Option.map_some, Option.getD_some] at hrow
      split at hrow <;> rename_i hfailed
      · rw [← hrow] at hs
        rw [hfailed] at hs
        cases hs
      · exact ⟨r, by rw [ho, hrow], hs⟩
  · exact ⟨r, hr, hs⟩

theorem isDelivered_requeue_iff {t : List DeliveredRow} {id id' : String} {now : ℕ} :
    IsDelivered (requeueFailedDelivery t id' now).1 id ↔ IsDelivered t id := by
  refine ⟨?_, fun h => requeue_keeps h id' now⟩
  rintro ⟨r, hr, hs⟩
  rw [find_requeue] at hr
  split at hr
  · obtain ⟨r₀, ho, hrow⟩ := Option.map_eq_some_iff.mp hr
    split at hrow <;> rename_i hfailed
    · rw [← hrow] at hs
      rw [hfailed] at hs
      cases hs
    · subst hrow
      rename_i he
      subst he
      exact ⟨r₀, ho, hs⟩
  · exact ⟨r, hr, hs⟩

end AgentDesk
