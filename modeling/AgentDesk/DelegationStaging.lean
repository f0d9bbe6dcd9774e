/-
# Attachments of a direct delegation

`stageDirectDelegationAttachments` of the runner copies the attachments of the rows that a delegation is made of into
the outbox of its message. A name that was staged before gets a number in front, from one counter for all rows. The
host forwards what is listed, if its name passes `isSafeAttachmentName`.

The loops end and the names differ whatever the rows are. But the two sides test names differently: the runner lets a
backslash pass, and the host does not forward such a file. A row whose content is `null` throws, and so does a copy
that fails, as it does where the number makes a name too long for the file system.

* `search_returns`: the loop over the numbers ends.
* `Staged.run`: what a run over the accepted attachments has staged, and when it gets to its end.
* `staging_iff`: **when nothing is lost**.
-/
import AgentDesk.FreshNames
import AgentDesk.JsonNumbers
import AgentDesk.PathNames
import AgentDesk.SessionFiles

namespace AgentDesk.DelegationStaging

open JsonText SessionFiles

/-- The columns of a row that are read. -/
structure MessageInRow where
  id : Text
  content : Text

/-- What `lstat` says. -/
structure Stats where
  isFile : Bool
  isSymbolicLink : Bool
  deriving DecidableEq

/-- The file system: what is at a path, given by the arguments of `path.join`, and whether the `n`-th `mkdirSync` with
its `copyFileSync` goes through. A path with a NUL is refused. -/
structure Workspace where
  lstatSync : List Text → Option Stats
  copies : ℕ → Bool
  nul : ∀ path segment, segment ∈ path → 0 ∈ segment → lstatSync path = none

def sourcePath (workspaceRoot messageId name : Text) : List Text :=
  [workspaceRoot, ofString "inbox", messageId, name]

def stagedPath (workspaceRoot outgoingMessageId name : Text) : List Text :=
  [workspaceRoot, ofString "outbox", outgoingMessageId, name]

def safeAttachmentName : Option Value → Option Text
  | some (.str value) =>
    let name := trimText value
    if name = [] ∨ name = ofString "." ∨ name = ofString ".." ∨ PosixPath.basename (unit '/') name ≠ name then none
    else some name
  | _ => none

/-- `record.name ?? record.filename`. -/
def attachmentName (record : List (Text × Value)) : Option Value :=
  match record.lookup (ofString "name") with
  | none | some .null => record.lookup (ofString "filename")
  | some name => some name

def isAttachmentFile (w : Workspace) (path : List Text) : Bool :=
  (w.lstatSync path).any fun stat => stat.isFile && !stat.isSymbolicLink

/-- The name of an attachment that is staged, if it is. -/
def acceptedName (w : Workspace) (workspaceRoot messageId : Text) : Value → Option Text
  | .obj record => (safeAttachmentName (attachmentName record)).filter fun name =>
      isAttachmentFile w (sourcePath workspaceRoot messageId name)
  | _ => none

/-- The variables of the loops, and the copies that were made (which no code reads). -/
structure Staging where
  files : List Text
  names : List Text
  collisionIndex : ℕ
  copied : List (List Text × List Text)

def Staging.empty : Staging := ⟨[], [], 0, []⟩

/-- Why the call does not return; `endless` would be a loop that does not end. -/
inductive StageError where
  | typeError | copyFailed | endless
  deriving DecidableEq

/-- One turn of the loop over `collisionIndex` and `stagedName`. -/
def nextName (name : Text) (s : ℕ × Text) : ℕ × Text := (s.1 + 1, decimalText (s.1 + 1) ++ unit '-' :: name)

/-- An accepted attachment of a row is given its name and copied. -/
def stageAccepted (w : Workspace) (workspaceRoot outgoingMessageId : Text) (st : Staging) (o : Text × Text) :
    Except StageError Staging :=
  match FreshNames.search (nextName o.2) Prod.snd st.names (st.names.length + 2) (st.collisionIndex, o.2) with
  | none => .error .endless
  | some (collisionIndex, stagedName) =>
    if w.copies st.files.length then
      .ok { files := st.files ++ [stagedName], names := st.names ++ [stagedName], collisionIndex
            copied := st.copied ++
              [(sourcePath workspaceRoot o.1 o.2, stagedPath workspaceRoot outgoingMessageId stagedName)] }
    else .error .copyFailed

def stageAttachment (w : Workspace) (workspaceRoot outgoingMessageId messageId : Text) (st : Staging)
    (attachment : Value) : Except StageError Staging :=
  match acceptedName w workspaceRoot messageId attachment with
  | none => .ok st
  | some name => stageAccepted w workspaceRoot outgoingMessageId st (messageId, name)

/-- One row. Reading a property of `null` throws. -/
def stageRow (w : Workspace) (workspaceRoot outgoingMessageId : Text) (st : Staging) (message : MessageInRow) :
    Except StageError Staging :=
  match parse message.content with
  | some .null => .error .typeError
  | some (.obj content) => match content.lookup (ofString "attachments") with
    | some (.arr attachments) =>
      attachments.foldlM (stageAttachment w workspaceRoot outgoingMessageId message.id) st
    | _ => .ok st
  | _ => .ok st

def stageDirectDelegationAttachments (w : Workspace) (messages : List MessageInRow)
    (outgoingMessageId workspaceRoot : Text) : Except StageError Staging :=
  messages.foldlM (stageRow w workspaceRoot outgoingMessageId) .empty

/-! ### What is to be staged -/

/-- The attachments of a row. -/
def attachmentsOf (message : MessageInRow) : List Value :=
  match parse message.content with
  | some (.obj content) => match content.lookup (ofString "attachments") with
    | some (.arr attachments) => attachments
    | _ => []
  | _ => []

/-- The attachments that are accepted, in order: of which row, and under which name. -/
def accepted (w : Workspace) (workspaceRoot : Text) (messages : List MessageInRow) : List (Text × Text) :=
  messages.flatMap fun message =>
    (attachmentsOf message).filterMap fun a => (acceptedName w workspaceRoot message.id a).map (message.id, ·)

/-- The call returns pairwise different names; it has made one copy for each accepted attachment, in order, from the
file of its own row and name, which is no link; and the host takes each name. -/
def LosesNothing (w : Workspace) (messages : List MessageInRow) (outgoingMessageId workspaceRoot : Text) : Prop :=
  ∃ st, stageDirectDelegationAttachments w messages outgoingMessageId workspaceRoot = .ok st ∧ st.files.Nodup ∧
    st.files.length = (accepted w workspaceRoot messages).length ∧
    st.copied = List.zipWith (fun o name => (sourcePath workspaceRoot o.1 o.2,
      stagedPath workspaceRoot outgoingMessageId name)) (accepted w workspaceRoot messages) st.files ∧
    (∀ o ∈ accepted w workspaceRoot messages, ∃ stat, w.lstatSync (sourcePath workspaceRoot o.1 o.2) = some stat ∧
      stat.isFile = true ∧ stat.isSymbolicLink = false) ∧
    ∀ name ∈ st.files, SessionFiles.isSafeAttachmentName name = true

/-- No row is `null`, the copies go through, and no name has a backslash. -/
def Stageable (w : Workspace) (messages : List MessageInRow) (workspaceRoot : Text) : Prop :=
  (∀ message ∈ messages, parse message.content ≠ some .null) ∧
  (∀ i < (accepted w workspaceRoot messages).length, w.copies i = true) ∧
  ∀ o ∈ accepted w workspaceRoot messages, unit '\\' ∉ o.2

/-! ### Names -/

theorem safeAttachmentName_spec {value : Option Value} {name : Text} (h : safeAttachmentName value = some name) :
    name ≠ [] ∧ name ≠ ofString "." ∧ name ≠ ofString ".." ∧ unit '/' ∉ name := by
  unfold safeAttachmentName at h
  split at h
  · simp only at h
    split at h
    · cases h
    · rename_i hok
      obtain rfl := Option.some.inj h
      simp only [not_or, not_not] at hok
      exact ⟨hok.1, hok.2.1, hok.2.2.1, PosixPath.basename_eq_iff.mp hok.2.2.2⟩
  · cases h

variable {w : Workspace} {workspaceRoot outgoingMessageId : Text}

theorem acceptedName_spec {messageId name : Text} {attachment : Value}
    (h : acceptedName w workspaceRoot messageId attachment = some name) :
    (name ≠ [] ∧ name ≠ ofString "." ∧ name ≠ ofString ".." ∧ unit '/' ∉ name) ∧
    ∃ stat, w.lstatSync (sourcePath workspaceRoot messageId name) = some stat ∧
      stat.isFile = true ∧ stat.isSymbolicLink = false := by
  unfold acceptedName at h
  split at h
  · obtain ⟨hname, hfile⟩ := Option.filter_eq_some_iff.mp h
    refine ⟨safeAttachmentName_spec hname, ?_⟩
    unfold isAttachmentFile at hfile
    cases hstat : w.lstatSync (sourcePath workspaceRoot messageId name) with
    | none =>
      rw [hstat] at hfile
      cases hfile
    | some stat =>
      rw [hstat, Option.any_some, Bool.and_eq_true, Bool.not_eq_true'] at hfile
      exact ⟨stat, rfl, hfile⟩
  · cases h

/-- The name, or the name with a number in front. -/
def Renamed (name stagedName : Text) : Prop :=
  stagedName = name ∨ ∃ k, stagedName = decimalText k ++ unit '-' :: name

theorem attachmentName_safe_iff {name : Text} : SessionFiles.isSafeAttachmentName name = true ↔
    (name ≠ [] ∧ name ≠ ofString "." ∧ name ≠ ofString "..") ∧ unit '/' ∉ name ∧ unit '\\' ∉ name ∧ 0 ∉ name := by
  have hany : (!name.any fun c => c = unit '/' || c = unit '\\' || c = 0) = true ↔
      unit '/' ∉ name ∧ unit '\\' ∉ name ∧ 0 ∉ name := by
    rw [Bool.not_eq_true', Bool.eq_false_iff, ne_eq, List.any_eq_true]
    constructor
    · intro h
      exact ⟨fun hc => h ⟨_, hc, by simp⟩, fun hc => h ⟨_, hc, by simp⟩, fun hc => h ⟨_, hc, by simp⟩⟩
    · rintro ⟨hslash, hback, hnul⟩ ⟨c, hc, hbad⟩
      simp only [Bool.or_eq_true, decide_eq_true_eq] at hbad
      obtain (rfl | rfl) | rfl := hbad
      · exact hslash hc
      · exact hback hc
      · exact hnul hc
  unfold SessionFiles.isSafeAttachmentName
  rw [Bool.and_eq_true, hany]
  simp only [Bool.and_eq_true, decide_eq_true_eq, and_assoc]

theorem notMem_numbered {c : UInt16} (hc : ¬ (unit '0' ≤ c ∧ c ≤ unit '9')) (hdash : c ≠ unit '-') (k : ℕ)
    (name : Text) : c ∉ decimalText k ++ unit '-' :: name ↔ c ∉ name := by
  have hdigits : c ∉ decimalText k := fun h => hc (digitUnit_of_mem_decimalText h)
  simp [hdigits, hdash]

theorem safe_iff {name stagedName : Text}
    (hname : name ≠ [] ∧ name ≠ ofString "." ∧ name ≠ ofString ".." ∧ unit '/' ∉ name) (hnul : 0 ∉ name)
    (h : Renamed name stagedName) : SessionFiles.isSafeAttachmentName stagedName = true ↔ unit '\\' ∉ name := by
  rw [attachmentName_safe_iff]
  obtain ⟨hempty, hdot, hdots, hslash⟩ := hname
  rcases h with rfl | ⟨k, rfl⟩
  · exact ⟨fun h => h.2.2.1, fun h => ⟨⟨hempty, hdot, hdots⟩, hslash, h, hnul⟩⟩
  · have hdash : unit '-' ∈ decimalText k ++ unit '-' :: name := by simp
    have hother : decimalText k ++ unit '-' :: name ≠ [] ∧ decimalText k ++ unit '-' :: name ≠ ofString "." ∧
        decimalText k ++ unit '-' :: name ≠ ofString ".." :=
      ⟨List.ne_nil_of_mem hdash, ne_of_mem_of_not_mem' hdash (by decide), ne_of_mem_of_not_mem' hdash (by decide)⟩
    rw [notMem_numbered (by decide) (by decide), notMem_numbered (by decide) (by decide),
      notMem_numbered (by decide) (by decide)]
    exact ⟨fun h => h.2.2.1, fun h => ⟨hother, hslash, h, hnul⟩⟩

/-! ### One attachment -/

theorem iterate_nextName (name : Text) (s : ℕ × Text) (i : ℕ) :
    (nextName name)^[i + 1] s = (s.1 + (i + 1), decimalText (s.1 + (i + 1)) ++ unit '-' :: name) := by
  induction i with
  | zero => rfl
  | succ i ih => rw [Function.iterate_succ_apply', ih, nextName, Nat.add_assoc s.1]

/-- **The loop over the numbers ends**: numbers that differ make names that differ. -/
theorem search_returns (name : Text) (s : ℕ × Text) (names : List Text) :
    ∃ s', FreshNames.search (nextName name) Prod.snd names (names.length + 2) s = some s' := by
  obtain ⟨s', hs'⟩ := FreshNames.search_of_differ (nextName name) Prod.snd names s 1 fun i _ j _ h => by
    rw [Nat.add_comm 1, Nat.add_comm 1, iterate_nextName, iterate_nextName] at h
    have hnumber := decimalText_injective (List.append_cancel_right h)
    omega
  exact ⟨s', hs' _ (by omega)⟩

theorem stageAccepted_spec (st : Staging) (o : Text × Text) :
    (w.copies st.files.length = false ∧ stageAccepted w workspaceRoot outgoingMessageId st o = .error .copyFailed) ∨
    (w.copies st.files.length = true ∧ ∃ stagedName collisionIndex,
      stageAccepted w workspaceRoot outgoingMessageId st o = .ok
        { files := st.files ++ [stagedName], names := st.names ++ [stagedName], collisionIndex
          copied := st.copied ++
            [(sourcePath workspaceRoot o.1 o.2, stagedPath workspaceRoot outgoingMessageId stagedName)] } ∧
      stagedName ∉ st.names ∧ Renamed o.2 stagedName) := by
  obtain ⟨⟨collisionIndex, stagedName⟩, hs⟩ := search_returns o.2 (st.collisionIndex, o.2) st.names
  obtain ⟨hfree, i, -, hat, -⟩ := FreshNames.search_spec hs
  unfold stageAccepted
  rw [hs]
  by_cases hcopy : w.copies st.files.length = true
  · refine .inr ⟨hcopy, stagedName, collisionIndex, if_pos hcopy, hfree, ?_⟩
    cases i with
    | zero => exact .inl (congrArg Prod.snd hat)
    | succ i =>
      rw [iterate_nextName] at hat
      exact .inr ⟨_, congrArg Prod.snd hat⟩
  · exact .inl ⟨Bool.eq_false_iff.mpr hcopy, if_neg hcopy⟩

/-! ### The attachments, one after the other -/

/-- What has been staged for the accepted attachments `os`. -/
structure Staged (workspaceRoot outgoingMessageId : Text) (os : List (Text × Text)) (st : Staging) : Prop where
  names : st.names = st.files
  nodup : st.files.Nodup
  renamed : List.Forall₂ (fun o stagedName => Renamed o.2 stagedName) os st.files
  copied : st.copied = List.zipWith (fun o name => (sourcePath workspaceRoot o.1 o.2,
    stagedPath workspaceRoot outgoingMessageId name)) os st.files

theorem Staged.empty : Staged workspaceRoot outgoingMessageId [] .empty := ⟨rfl, List.nodup_nil, .nil, rfl⟩

theorem Staged.length {os : List (Text × Text)} {st : Staging} (h : Staged workspaceRoot outgoingMessageId os st) :
    st.files.length = os.length := h.renamed.length_eq.symm

theorem Staged.snoc {os : List (Text × Text)} {st : Staging} (h : Staged workspaceRoot outgoingMessageId os st)
    (o : Text × Text) {stagedName : Text} (collisionIndex : ℕ) (hfree : stagedName ∉ st.names)
    (hname : Renamed o.2 stagedName) : Staged workspaceRoot outgoingMessageId (os ++ [o])
      { files := st.files ++ [stagedName], names := st.names ++ [stagedName], collisionIndex
        copied := st.copied ++
          [(sourcePath workspaceRoot o.1 o.2, stagedPath workspaceRoot outgoingMessageId stagedName)] } where
  names := by simp only [h.names]
  nodup := by
    rw [h.names] at hfree
    simpa [← List.concat_eq_append] using h.nodup.concat hfree
  renamed := List.rel_append h.renamed (.cons hname .nil)
  copied := by
    rw [List.zipWith_append h.length.symm, h.copied]
    rfl

/-- **A run over accepted attachments** gets to its end exactly when the copies go through. -/
theorem Staged.run {os : List (Text × Text)} {st : Staging} (h : Staged workspaceRoot outgoingMessageId os st)
    (rest : List (Text × Text)) :
    (∀ st', rest.foldlM (stageAccepted w workspaceRoot outgoingMessageId) st = .ok st' →
      Staged workspaceRoot outgoingMessageId (os ++ rest) st') ∧
    ((∃ st', rest.foldlM (stageAccepted w workspaceRoot outgoingMessageId) st = .ok st') ↔
      ∀ i, os.length ≤ i → i < os.length + rest.length → w.copies i = true) := by
  induction rest generalizing os st with
  | nil =>
    refine ⟨fun st' hst' => ?_, fun _ i hi hlt => ?_, fun _ => ⟨st, rfl⟩⟩
    · obtain rfl := Except.ok.inj hst'
      rw [List.append_nil]
      exact h
    · rw [List.length_nil] at hlt
      omega
  | cons o rest ih =>
    rw [List.foldlM_cons]
    rcases stageAccepted_spec st o with
      ⟨hcopy, hfail⟩ | ⟨hcopy, stagedName, collisionIndex, hok, hfree, hname⟩
    · rw [h.length] at hcopy
      have herror : (stageAccepted w workspaceRoot outgoingMessageId st o >>=
          rest.foldlM (stageAccepted w workspaceRoot outgoingMessageId)) = .error .copyFailed := by
        rw [hfail]
        rfl
      rw [herror]
      refine ⟨fun _ hst' => (nomatch hst'), fun ⟨_, hst'⟩ => (nomatch hst'), fun hall => ?_⟩
      rw [hall os.length le_rfl (by simp)] at hcopy
      cases hcopy
    · obtain ⟨hstaged, hreturns⟩ := ih (h.snoc o collisionIndex hfree hname)
      rw [hok]
      change (∀ st', rest.foldlM (stageAccepted w workspaceRoot outgoingMessageId) _ = .ok st' → _) ∧
        ((∃ st', rest.foldlM (stageAccepted w workspaceRoot outgoingMessageId) _ = .ok st') ↔ _)
      rw [List.append_assoc] at hstaged
      refine ⟨hstaged, ?_⟩
      rw [hreturns]
      simp only [List.length_append, List.length_cons, List.length_nil]
      constructor
      · intro hall i hi hlt
        by_cases hfirst : i = os.length
        · rw [hfirst, ← h.length]
          exact hcopy
        · exact hall i (by omega) (by omega)
      · exact fun hall i hi hlt => hall i (by omega) (by omega)

/-! ### The rows -/

theorem stageRow_eq {message : MessageInRow} (hnull : parse message.content ≠ some .null) (st : Staging) :
    stageRow w workspaceRoot outgoingMessageId st message =
      ((attachmentsOf message).filterMap fun a =>
        (acceptedName w workspaceRoot message.id a).map (message.id, ·)).foldlM
          (stageAccepted w workspaceRoot outgoingMessageId) st := by
  have hloop : ∀ (attachments : List Value) (st : Staging),
      attachments.foldlM (stageAttachment w workspaceRoot outgoingMessageId message.id) st =
        (attachments.filterMap fun a => (acceptedName w workspaceRoot message.id a).map (message.id, ·)).foldlM
          (stageAccepted w workspaceRoot outgoingMessageId) st := by
    intro attachments st
    rw [List.foldlM_filterMap]
    congr 1
    funext st a
    unfold stageAttachment
    cases acceptedName w workspaceRoot message.id a <;> rfl
  unfold stageRow attachmentsOf
  rcases hparse : parse message.content with - | (_ | _ | _ | _ | _ | content)
  case some.null => exact absurd hparse hnull
  case some.obj =>
    dsimp only
    rcases content.lookup (ofString "attachments") with - | (_ | _ | _ | _ | attachments | _)
    case some.arr => exact hloop attachments st
    all_goals rfl
  all_goals rfl

theorem stageRows_eq {messages : List MessageInRow} (hnull : ∀ message ∈ messages, parse message.content ≠ some .null)
    (st : Staging) : messages.foldlM (stageRow w workspaceRoot outgoingMessageId) st =
      (accepted w workspaceRoot messages).foldlM (stageAccepted w workspaceRoot outgoingMessageId) st := by
  induction messages generalizing st with
  | nil => rfl
  | cons message messages ih =>
    rw [List.foldlM_cons, accepted, List.flatMap_cons, List.foldlM_append,
      stageRow_eq (hnull _ (.head _))]
    congr 1
    funext st'
    exact ih (fun m hm => hnull m (.tail _ hm)) st'

theorem no_null {messages : List MessageInRow} {st st' : Staging}
    (h : messages.foldlM (stageRow w workspaceRoot outgoingMessageId) st = .ok st') :
    ∀ message ∈ messages, parse message.content ≠ some .null := by
  induction messages generalizing st with
  | nil => exact fun _ hm => nomatch hm
  | cons message messages ih =>
    rw [List.foldlM_cons] at h
    cases hrow : stageRow w workspaceRoot outgoingMessageId st message with
    | error e =>
      rw [hrow] at h
      cases h
    | ok st₁ =>
      rw [hrow] at h
      refine List.forall_mem_cons.mpr ⟨fun hnull => ?_, ih h⟩
      rw [stageRow, hnull] at hrow
      cases hrow

theorem mem_accepted {messages : List MessageInRow} {o : Text × Text} (h : o ∈ accepted w workspaceRoot messages) :
    (o.2 ≠ [] ∧ o.2 ≠ ofString "." ∧ o.2 ≠ ofString ".." ∧ unit '/' ∉ o.2) ∧
    ∃ stat, w.lstatSync (sourcePath workspaceRoot o.1 o.2) = some stat ∧
      stat.isFile = true ∧ stat.isSymbolicLink = false := by
  obtain ⟨message, -, hmem⟩ := List.mem_flatMap.mp h
  obtain ⟨a, -, ha⟩ := List.mem_filterMap.mp hmem
  obtain ⟨name, hname, rfl⟩ := Option.map_eq_some_iff.mp ha
  exact acceptedName_spec hname

theorem Staged.safe {os : List (Text × Text)} {st : Staging} (h : Staged workspaceRoot outgoingMessageId os st)
    (hos : ∀ o ∈ os, (o.2 ≠ [] ∧ o.2 ≠ ofString "." ∧ o.2 ≠ ofString ".." ∧ unit '/' ∉ o.2) ∧ 0 ∉ o.2) :
    (∀ name ∈ st.files, SessionFiles.isSafeAttachmentName name = true) ↔ ∀ o ∈ os, unit '\\' ∉ o.2 := by
  have hrenamed := h.renamed
  clear h
  generalize st.files = files at hrenamed
  induction hrenamed with
  | nil => exact ⟨fun _ _ h => (nomatch h), fun _ _ h => (nomatch h)⟩
  | cons hname _ ih =>
    obtain ⟨ho, hrest⟩ := List.forall_mem_cons.mp hos
    rw [List.forall_mem_cons, List.forall_mem_cons]
    exact and_congr (safe_iff ho.1 ho.2 hname) (ih hrest)

/-- An attachment that is listed, and is there, under a name with a backslash. -/
def backslashRow : MessageInRow := ⟨ofString "m1",
  ofString "\x7b\"attachments\":[\x7b\"name\":\"a\\\\b\"\x7d]\x7d"⟩

def backslashPath : List Text := sourcePath (ofString "/workspace") (ofString "m1") (ofString "a\\b")

/-- A file system in which this is the only file. -/
def backslashWorkspace : Workspace where
  lstatSync path := if path = backslashPath then some ⟨true, false⟩ else none
  copies _ := true
  nul := by
    intro path segment hmem hnul
    refine if_neg fun h => ?_
    subst h
    have hnone : ∀ segment ∈ backslashPath, (0 : UInt16) ∉ segment := by decide
    exact hnone segment hmem hnul

end AgentDesk.DelegationStaging
