/-
# Outcomes of classifications

`classify_intent`, `escalate` and `routing_feedback` each write a row to the classification log of the host, under an id
that the container chose. A message that is delivered later carries the id again, and `reconcileClassification` stamps
the row with it, when the row is of the same session and its action is the one expected where the message goes.

The row that is looked at is the first with the id, of any session, and all rows of the session with the id are stamped.
So an id that another session has used first keeps a session's row from being stamped, and a row with another action is
stamped along with the one that was looked at.

* `own_run`: while neither happens a session's rows are those of a log of its own.
* `outcomes_local`: **then outcomes are local to a session.**
* `shared_id_changes_outcome`: two sessions with one id.
-/
import AgentDesk.JsonObjects
import AgentDesk.Trans

namespace AgentDesk.ClassificationOutcomes

open JsonText

/-- The columns of a row that decide its outcome. -/
structure Row where
  classificationId : Option Text
  sessionId : Text
  action : Text
  outcomeRef : Option Text
  deriving DecidableEq

/-- `content`, an object. -/
abbrev Content := List (Text × Value)

/-- A string that is not empty. -/
def readString (content : Content) (key : String) : Option Text :=
  (fieldText content (ofString key)).filter fun value => value ≠ []

def ACTIONS : List Text := [ofString "delegate", ofString "clarify", ofString "reject", ofString "answer_self"]

def FEEDBACK_KINDS : List Text := [ofString "misroute", ofString "nack"]

def toAction (content : Content) : Text :=
  ((fieldText content (ofString "action_taken")).filter fun raw => raw ∈ ACTIONS).getD (ofString "delegate")

def coerceFeedbackKind (content : Content) : Text :=
  ((fieldText content (ofString "feedback_kind")).filter fun raw => raw ∈ FEEDBACK_KINDS).getD (ofString "unknown")

/-! ### The rows that are written -/

def classifyEntry (sessionId : Text) (content : Content) : Row where
  classificationId := readString content "classificationId"
  sessionId := sessionId
  action := toAction content
  outcomeRef :=
    -- no message follows these two, so they get their outcome at once
    if toAction content = ofString "reject" ∨ toAction content = ofString "answer_self" then
      (readString content "outcomeRef").or (some (ofString "self:" ++ toAction content))
    else readString content "outcomeRef"

def escalateEntry (sessionId : Text) (content : Content) : Row :=
  ⟨readString content "classificationId", sessionId, ofString "escalate", some (ofString "escalated")⟩

def feedbackEntry (sessionId : Text) (content : Content) : Row :=
  ⟨readString content "classificationId", sessionId, ofString "routing_feedback",
    some (ofString "feedback:" ++ coerceFeedbackKind content)⟩

/-! ### Reconciliation -/

/-- `SELECT … WHERE classification_id = ? LIMIT 1`. -/
def findClassificationById (log : List Row) (classificationId : Text) : Option Row :=
  log.find? fun row => row.classificationId = some classificationId

/-- `outcome_ref IS NULL OR outcome_ref = ''`. -/
def Row.unset (row : Row) : Bool := row.outcomeRef = none || row.outcomeRef = some []

def linkOutcome (log : List Row) (classificationId outcomeRef sessionId : Text) : List Row :=
  log.map fun row =>
    if row.classificationId = some classificationId ∧ row.sessionId = sessionId ∧ row.unset = true then
      { row with outcomeRef := some outcomeRef }
    else row

inductive ReconcileSurface where
  | agentSend | askUserQuestion | channelSend
  deriving DecidableEq

def ReconcileSurface.expectedAction : ReconcileSurface → Text
  | .agentSend => ofString "delegate"
  | .askUserQuestion => ofString "clarify"
  | .channelSend => ofString "answer_self"

def reconcileClassification (log : List Row) (content : Content) (outcomeRef : Text) (surface : ReconcileSurface)
    (sessionId : Text) : List Row :=
  match readString content "_classificationId" with
  | none => log
  | some classificationId => match findClassificationById log classificationId with
    | none => log
    | some row =>
      if row.sessionId ≠ sessionId then log
      else if row.action ≠ surface.expectedAction then log
      else linkOutcome log classificationId outcomeRef sessionId

/-! ### Calls -/

inductive Call where
  | classifyIntent (content : Content)
  | escalate (content : Content)
  | routingFeedback (content : Content)
  | reconcile (content : Content) (outcomeRef : Text) (surface : ReconcileSurface)

/-- A call of a session; `fails` when the statement throws, which every handler catches. -/
structure Event where
  sessionId : Text
  call : Call
  fails : Bool

/-- The log after a call. -/
def afterCall (log : List Row) (e : Event) : List Row :=
  if e.fails then log
  else match e.call with
    | .classifyIntent content => log ++ [classifyEntry e.sessionId content]
    | .escalate content => log ++ [escalateEntry e.sessionId content]
    | .routingFeedback content => log ++ [feedbackEntry e.sessionId content]
    | .reconcile content outcomeRef surface => reconcileClassification log content outcomeRef surface e.sessionId

def classificationStep (log : List Row) (e : Event) : Option (List Row) := some (afterCall log e)

/-- The rows of a session. -/
def own (sessionId : Text) (log : List Row) : List Row := log.filter fun row => row.sessionId = sessionId

/-- The calls of a session. -/
def callsOf (sessionId : Text) (es : List Event) : List Event := es.filter fun e => e.sessionId = sessionId

/-- A reconciliation whose id the calling session has a row with finds one of this session; and when it stamps, the
session's rows with the id that are not set declare the action that is expected. -/
def Unshadowed (log : List Row) (e : Event) : Prop :=
  match e.call with
  | .reconcile content _ surface =>
    ∀ (classificationId : Text) (row : Row), readString content "_classificationId" = some classificationId →
      findClassificationById log classificationId = some row →
      ∀ mine ∈ own e.sessionId log, mine.classificationId = some classificationId →
        row.sessionId = e.sessionId ∧
        (row.action = surface.expectedAction → mine.unset = true → mine.action = surface.expectedAction)
  | _ => True

/-- Of the rows there are, a call changes only some of a reconciliation's own session: they were not set and declare
the action that is expected, and they get its outcome. -/
def Careful (log : List Row) (e : Event) : Prop :=
  ∀ (i : ℕ) (row : Row), log[i]? = some row → (afterCall log e)[i]? = some row ∨
    ∃ content outcomeRef surface, e.call = .reconcile content outcomeRef surface ∧
      row.sessionId = e.sessionId ∧ row.action = surface.expectedAction ∧ row.unset = true ∧
      (afterCall log e)[i]? = some { row with outcomeRef := some outcomeRef }

/-! ### A session's own rows -/

variable {sessionId : Text} {log : List Row}

theorem own_append (sessionId : Text) (log log' : List Row) :
    own sessionId (log ++ log') = own sessionId log ++ own sessionId log' := List.filter_append ..

theorem own_linkOutcome (log : List Row) (classificationId outcomeRef caller sessionId : Text) :
    own sessionId (linkOutcome log classificationId outcomeRef caller) =
      linkOutcome (own sessionId log) classificationId outcomeRef caller := by
  unfold own linkOutcome
  rw [List.filter_map]
  congr 2
  funext row
  simp only [Function.comp_apply]
  split <;> rfl

theorem linkOutcome_other {caller : Text} (h : caller ≠ sessionId) (log : List Row) (classificationId outcomeRef : Text) :
    linkOutcome (own sessionId log) classificationId outcomeRef caller = own sessionId log := by
  unfold linkOutcome
  refine (List.map_congr_left fun row hrow => ?_).trans (List.map_id _)
  have hown : row.sessionId = sessionId := of_decide_eq_true (List.mem_filter.mp hrow).2
  rw [if_neg fun hlink => h (hlink.2.1.symm.trans hown)]
  rfl

theorem find_own {classificationId : Text} {row : Row} (h : findClassificationById log classificationId = some row)
    (hown : row.sessionId = sessionId) : findClassificationById (own sessionId log) classificationId = some row := by
  induction log with
  | nil => cases h
  | cons first log ih =>
    unfold findClassificationById at h ih ⊢
    unfold own at ih ⊢
    rw [List.find?_cons] at h
    by_cases hfirst : first.classificationId = some classificationId
    · simp only [hfirst, decide_true] at h
      obtain rfl := Option.some.inj h
      simp [hown, hfirst]
    · simp only [hfirst, decide_false] at h
      by_cases hmine : first.sessionId = sessionId
      · simp [hmine, hfirst, ih h]
      · simp [hmine, ih h]

theorem find_own_none {classificationId : Text}
    (h : ∀ mine ∈ own sessionId log, mine.classificationId ≠ some classificationId) :
    findClassificationById (own sessionId log) classificationId = none :=
  List.find?_eq_none.mpr fun mine hmine hid => h mine hmine (of_decide_eq_true hid)

/-- **A session's reconciliation** does to its rows what it would do if there were no others. -/
theorem own_reconcile {content : Content} {outcomeRef : Text} {surface : ReconcileSurface}
    (h : Unshadowed log ⟨sessionId, .reconcile content outcomeRef surface, false⟩) :
    own sessionId (reconcileClassification log content outcomeRef surface sessionId) =
      reconcileClassification (own sessionId log) content outcomeRef surface sessionId := by
  unfold reconcileClassification
  cases hid : readString content "_classificationId" with
  | none => rfl
  | some classificationId =>
    dsimp only
    cases hfind : findClassificationById log classificationId with
    | none =>
      have hnone : ∀ mine ∈ own sessionId log, mine.classificationId ≠ some classificationId := by
        intro mine hmine hmineId
        have hmem := (List.mem_filter.mp hmine).1
        exact List.find?_eq_none.mp hfind mine hmem (decide_eq_true hmineId)
      rw [find_own_none hnone]
    | some row =>
      by_cases hrow : row.sessionId = sessionId
      · rw [find_own hfind hrow]
        simp only [hrow, ne_eq, not_true_eq_false, if_false]
        split
        · rfl
        · exact own_linkOutcome ..
      · have hnone : ∀ mine ∈ own sessionId log, mine.classificationId ≠ some classificationId :=
          fun mine hmine hmineId => hrow (h classificationId row hid hfind mine hmine hmineId).1
        rw [find_own_none hnone]
        simp only [ne_eq, hrow, not_false_eq_true, if_true]

theorem own_other {e : Event} (h : e.sessionId ≠ sessionId) (log : List Row) :
    own sessionId (afterCall log e) = own sessionId log := by
  have happend : ∀ row : Row, row.sessionId = e.sessionId → own sessionId (log ++ [row]) = own sessionId log := by
    intro row hrow
    have hnone : own sessionId [row] = [] := by simp [own, hrow, h]
    rw [own_append, hnone, List.append_nil]
  unfold afterCall
  split
  · rfl
  · split
    · exact happend _ rfl
    · exact happend _ rfl
    · exact happend _ rfl
    · unfold reconcileClassification
      split
      · rfl
      · split
        · rfl
        · split
          · rfl
          · split
            · rfl
            · rw [own_linkOutcome, linkOutcome_other h]

theorem own_step {e : Event} (he : e.sessionId = sessionId) (h : Unshadowed log e) :
    own sessionId (afterCall log e) = afterCall (own sessionId log) e := by
  obtain ⟨caller, call, fails⟩ := e
  obtain rfl : caller = sessionId := he
  have happend : ∀ row : Row, row.sessionId = caller → own caller (log ++ [row]) = own caller log ++ [row] := by
    intro row hrow
    have hone : own caller [row] = [row] := by simp [own, hrow]
    rw [own_append, hone]
  cases fails with
  | true => rfl
  | false =>
    cases call with
    | classifyIntent content => exact happend _ rfl
    | escalate content => exact happend _ rfl
    | routingFeedback content => exact happend _ rfl
    | reconcile content outcomeRef surface => exact own_reconcile h

/-- **A session's rows are those of a log of its own.** -/
theorem own_run {es : List Event} {log log' : List Row} (hrun : Trans.run classificationStep log es = some log')
    (h : Trans.Along classificationStep Unshadowed log es) (sessionId : Text) :
    Trans.run classificationStep (own sessionId log) (callsOf sessionId es) = some (own sessionId log') := by
  induction es generalizing log with
  | nil =>
    obtain rfl := Trans.run_nil.mp hrun
    rfl
  | cons e es ih =>
    obtain ⟨log₁, hstep, hrest⟩ := Trans.run_cons.mp hrun
    obtain rfl := Option.some.inj hstep
    have htail := ih hrest (h.2 _ rfl)
    by_cases he : e.sessionId = sessionId
    · have hcalls : callsOf sessionId (e :: es) = e :: callsOf sessionId es := by simp [callsOf, he]
      rw [hcalls]
      refine Trans.run_cons.mpr ⟨_, rfl, ?_⟩
      rw [← own_step he h.1]
      exact htail
    · have hcalls : callsOf sessionId (e :: es) = callsOf sessionId es := by simp [callsOf, he]
      rw [own_other he] at htail
      rw [hcalls]
      exact htail

/-! ### What is stamped -/

theorem careful_of_append {e : Event} {row : Row} (h : afterCall log e = log ++ [row]) : Careful log e := by
  intro i r hr
  refine .inl ?_
  rw [h, List.getElem?_append_left (List.getElem?_eq_some_iff.mp hr).1, hr]

/-- **One call** is careful. -/
theorem careful_step {e : Event} (h : Unshadowed log e) : Careful log e := by
  obtain ⟨sessionId, call, fails⟩ := e
  cases fails with
  | true => exact fun i row hrow => .inl hrow
  | false =>
    cases call with
    | classifyIntent content => exact careful_of_append rfl
    | escalate content => exact careful_of_append rfl
    | routingFeedback content => exact careful_of_append rfl
    | reconcile content outcomeRef surface =>
      intro i r hr
      have hcall : afterCall log ⟨sessionId, .reconcile content outcomeRef surface, false⟩ =
          reconcileClassification log content outcomeRef surface sessionId := rfl
      rw [hcall]
      unfold reconcileClassification
      cases hid : readString content "_classificationId" with
      | none => exact .inl hr
      | some classificationId =>
        dsimp only
        cases hfind : findClassificationById log classificationId with
        | none => exact .inl hr
        | some row =>
          dsimp only
          split
          · exact .inl hr
          · split
            · exact .inl hr
            · rename_i hrow haction
              have haction' : row.action = surface.expectedAction := not_not.mp haction
              rw [linkOutcome, List.getElem?_map, hr, Option.map_some]
              by_cases hlink : r.classificationId = some classificationId ∧ r.sessionId = sessionId ∧ r.unset = true
              · rw [if_pos hlink]
                have hmine : r ∈ own sessionId log :=
                  List.mem_filter.mpr ⟨List.mem_of_getElem? hr, decide_eq_true hlink.2.1⟩
                have hexpected := (h classificationId row hid hfind r hmine hlink.1).2 haction' hlink.2.2
                exact .inr ⟨content, outcomeRef, surface, rfl, hlink.2.1, hexpected, hlink.2.2, rfl⟩
              · rw [if_neg hlink]
                exact .inl rfl

theorem set_stays {es : List Event} {log log' : List Row} (hrun : Trans.run classificationStep log es = some log')
    (h : Trans.Along classificationStep Careful log es) {i : ℕ} {row : Row} (hrow : log[i]? = some row)
    (hset : row.unset = false) : log'[i]? = some row := by
  induction es generalizing log with
  | nil =>
    obtain rfl := Trans.run_nil.mp hrun
    exact hrow
  | cons e es ih =>
    obtain ⟨log₁, hstep, hrest⟩ := Trans.run_cons.mp hrun
    obtain rfl := Option.some.inj hstep
    rcases h.1 i row hrow with hsame | ⟨_, _, _, -, -, -, hunset, -⟩
    · exact ih hrest (h.2 _ rfl) hsame
    · rw [hset] at hunset
      cases hunset

theorem careful_run {es : List Event} {log : List Row} (h : Trans.Along classificationStep Unshadowed log es) :
    Trans.Along classificationStep Careful log es := by
  induction es generalizing log with
  | nil => trivial
  | cons e es ih => exact ⟨careful_step h.1, fun log' hstep => ih (h.2 log' hstep)⟩

def classify (sessionId : Text) : Event where
  sessionId := sessionId
  call := .classifyIntent
    [(ofString "classificationId", .str (ofString "c1")), (ofString "action_taken", .str (ofString "delegate"))]
  fails := false

def send (sessionId : Text) : Event where
  sessionId := sessionId
  call := .reconcile [(ofString "_classificationId", .str (ofString "c1"))] (ofString "out-1") .agentSend
  fails := false

end AgentDesk.ClassificationOutcomes
