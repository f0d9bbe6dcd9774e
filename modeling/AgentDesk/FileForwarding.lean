/-
# Files that are named in a delegation

A message to another agent names files of the sender's outbox, and may bring attachments with data. The files are
copied one by one, and the attachments are walked once more when the message is written to the target. A reference
that is bad is meant to be skipped, so that it does not take the text down with it.

Two references are not skipped. A file that is named twice is copied twice, and the second copy meets the first;
and a `null` among the attachments has no `data`. Each throws on every attempt to deliver. A number out of range is
written as `null` when the content is written anew, and a name that is too long cannot be stored.

* `forwardLoop_eq`: what the loop over the names does, with the names it has copied as invariant.
* `extractLoop_ready`: when the loop over the attachments returns.
* `delegation_iff`: **when a delegation survives its files**.
* `repeated_file_throws`: a file that is named twice.
-/
import AgentDesk.AttachmentScope
import AgentDesk.JsonSettings

namespace AgentDesk.SessionFiles

open JsonText FileTree

/-! ### Admissible content -/

def MAX_OUTBOUND_CONTENT_BYTES : ℕ := 4 * 1024 * 1024

def FORBIDDEN_KEYS : List String := ["__proto__", "constructor", "prototype"]

def MAX_DEPTH : ℕ := 12

def tooDeep (depth : ℕ) : Option String :=
  if MAX_DEPTH < depth then some s!"payload nests deeper than {MAX_DEPTH} levels" else none

mutual

/-- Why a value is not admissible, if it is not. -/
def scanValue (depth : ℕ) : Value → Option String
  | .arr l => (tooDeep depth).or (scanElements (depth + 1) l)
  | .obj fields => (tooDeep depth).or (scanMembers (depth + 1) fields)
  | _ => tooDeep depth

def scanElements (depth : ℕ) : List Value → Option String
  | [] => none
  | v :: l => (scanValue depth v).or (scanElements depth l)

def scanMembers (depth : ℕ) : List (Text × Value) → Option String
  | [] => none
  | (key, v) :: fields =>
    ((FORBIDDEN_KEYS.find? fun k => ofString k = key).map fun k => s!"payload contains forbidden key \"{k}\"").or
      ((scanValue depth v).or (scanMembers depth fields))

end

/-- The content of a row, or why it is not admissible. `syntaxMessage` is the message of the parser. -/
def parseOutboundContent (syntaxMessage : Text → String) (raw : Text) : Except String (List (Text × Value)) :=
  if MAX_OUTBOUND_CONTENT_BYTES < (utf8 raw).length then
    .error s!"payload exceeds {MAX_OUTBOUND_CONTENT_BYTES} bytes"
  else match parse raw with
    | none => .error s!"payload is not valid JSON: {syntaxMessage raw}"
    | some .null => .error "payload is null, expected a JSON object"
    | some (.arr _) => .error "payload is an array, expected a JSON object"
    | some (.bool _) => .error "payload is boolean, expected a JSON object"
    | some (.num _) => .error "payload is number, expected a JSON object"
    | some (.str _) => .error "payload is string, expected a JSON object"
    | some (.obj fields) => match scanValue 0 (.obj fields) with
      | some bad => .error bad
      | none => .ok fields

theorem parse_of_admissible {syntaxMessage : Text → String} {raw : Text} {fields : List (Text × Value)}
    (h : parseOutboundContent syntaxMessage raw = .ok fields) : parse raw = some (.obj fields) := by
  unfold parseOutboundContent at h
  split at h
  · cases h
  · split at h
    · cases h
    · cases h
    · cases h
    · cases h
    · cases h
    · cases h
    · rename_i fields' hparse
      split at h
      · cases h
      · cases h
        exact hparse

/-! ### Content that was written and parsed -/

theorem rewritten_arr (l : List Value) : rewritten (.arr l) = .arr (l.map rewritten) := by
  rw [rewritten, Json.toTree, Json.eval]
  congr 1
  induction l with
  | nil => rfl
  | cons v l ih => rw [treeList, evalList, ih, List.map_cons, rewritten]

/-! ### Attachments that can be extracted -/

/-- What the loop over the attachments asks of the element at `i`: that it is not `null`, and that the name its data
is stored under is not too long. -/
def Extractable (env : Env) (fits : Name → Bool) (i : ℕ) : Value → Prop
  | .null => False
  | .obj att => ∀ data, att.lookup (ofString "data") = some (.str data) →
    fits (utf8 (attachmentFilename env i att)) = true
  | _ => True

theorem extForMime_eq (env : Env) (att : List (Text × Value)) (key : Text) :
    extForMime env (att.lookup key) = match fieldText att key with
      | some mime => if mime = [] then []
        else entryOf MIME_TO_EXT (env.toLowerCase (trimText (mime.takeWhile fun c => c ≠ unit ';')))
      | none => [] := by
  unfold fieldText
  rcases att.lookup key with - | (_ | _ | _ | _ | _ | _) <;> rfl

theorem extForType_eq (env : Env) (att : List (Text × Value)) (key : Text) :
    extForType env (att.lookup key) = match fieldText att key with
      | some type => entryOf TYPE_TO_EXT (env.toLowerCase type)
      | none => [] := by
  unfold fieldText
  rcases att.lookup key with - | (_ | _ | _ | _ | _ | _) <;> rfl

theorem explicitName_eq (att : List (Text × Value)) (key : Text) :
    explicitName (att.lookup key) = (fieldText att key).filter fun explicit => explicit ≠ [] := by
  unfold fieldText
  rcases att.lookup key with - | (_ | _ | _ | explicit | _ | _)
  case some.str => cases explicit <;> rfl
  all_goals rfl

theorem attachmentFilename_congr {env : Env} {i : ℕ} {att att' : List (Text × Value)}
    (h : ∀ key, fieldText att key = fieldText att' key) :
    attachmentFilename env i att = attachmentFilename env i att' := by
  unfold attachmentFilename deriveAttachmentName derivedName
  simp only [extForMime_eq, extForType_eq, explicitName_eq, h]

theorem fieldText_rewritten {att att' : List (Text × Value)}
    (h : ∀ key, att'.lookup key = (att.lookup key).map rewritten) (key : Text) :
    fieldText att' key = fieldText att key := by
  unfold fieldText
  rw [h key]
  cases att.lookup key with
  | none => rfl
  | some v => exact text_toTree v

theorem lookup_str_iff {att : List (Text × Value)} {key t : Text} :
    att.lookup key = some (.str t) ↔ fieldText att key = some t := by
  unfold fieldText
  rcases att.lookup key with - | (_ | _ | _ | _ | _ | _) <;> simp [Json.text?]

theorem extractable_rewritten {env : Env} {fits : Name → Bool} {i : ℕ} {v : Value} (ho : v.Ordered) :
    Extractable env fits i (rewritten v) ↔ Extractable env fits i v ∧ ∀ neg, v ≠ .num (.infinity neg) := by
  cases v with
  | obj att =>
    obtain ⟨att', hatt', hlookup⟩ := lookup_rewritten ho
    have htext := fieldText_rewritten hlookup
    rw [hatt']
    unfold Extractable
    simp only [lookup_str_iff, htext, attachmentFilename_congr htext]
    simp
  | num x => cases x <;> simp [rewritten, Json.toTree, numberTree, Json.eval, Extractable]
  | null => simp [rewritten, Json.toTree, Json.eval, Extractable]
  | bool b => simp [rewritten, Json.toTree, Json.eval, Extractable]
  | str t => simp [rewritten, Json.toTree, Json.eval, Extractable]
  | arr l => simp [rewritten_arr, Extractable]

/-! ### A session's files as they should be -/

/-- A name that does not look like a way up. -/
def NoDots (n : Name) : Prop := n.take 2 ≠ utf8 (ofString "..")

theorem relative_append (p names : List Name) : relative p (p ++ names) = names.map .name := by
  induction p with
  | nil => simp [relative]
  | cons a p ih => rw [List.cons_append, relative, if_pos rfl, ih]

theorem startsWithDots_below {p names : List Name} {n : Name} (hn : NoDots n) :
    startsWithDots (relative p (p ++ n :: names)) = false := by
  rw [relative_append]
  exact decide_eq_false hn

theorem isPathInside_child {p : List Name} {n : Name} (hn : NoDots n) : isPathInside p (p ++ [n]) = true := by
  unfold isPathInside
  rw [startsWithDots_below hn, Bool.not_false, Bool.or_true]

theorem noDots_kind (kind : IoKind) : NoDots kind.name := by
  unfold NoDots
  cases kind <;> decide

variable {d : Disk} {root r : List Name} {messageId : Text}

theorem checkedKind_ready {kind : IoKind} (hroot : d.realpath root = .ok r)
    (hdir : d.node (r ++ [kind.name]) = some .dir) : checkedKind d root kind = some (r ++ [kind.name]) := by
  have hreal : d.realpath (kindPath root kind) = .ok (r ++ [kind.name]) := Disk.resolve_concat hroot hdir (.inr rfl)
  have hlstat : d.lstat (kindPath root kind) = .ok .dir :=
    Disk.lstat_iff.mpr ⟨_, Disk.resolve_concat hroot hdir (.inl rfl), hdir⟩
  unfold checkedKind
  rw [hlstat, hroot, hreal]
  simp [Except.toOption, isDirectory, isPathInside_child (noDots_kind kind), guard]

/-- A session whose inbox has room for a message: where there are directories on the way, they are no links. -/
structure InboxReady (d : Disk) (root r : List Name) (messageId : Text) : Prop where
  root : d.realpath root = .ok r
  dir : d.node r = some .dir
  inbox : d.node (r ++ [IoKind.inbox.name]) = none ∨ d.node (r ++ [IoKind.inbox.name]) = some .dir
  message : d.node (r ++ [IoKind.inbox.name] ++ [utf8 messageId]) = none ∨
    d.node (r ++ [IoKind.inbox.name] ++ [utf8 messageId]) = some .dir
  inboxFits : d.fits IoKind.inbox.name = true
  messageFits : d.fits (utf8 messageId) = true
  noDots : NoDots (utf8 messageId)

/-- One more directory on the way. -/
theorem InboxReady.add (h : InboxReady d root r messageId) {p : List Name} {n : Name}
    (hdir : d.node p = some .dir) (hfree : d.node (p ++ [n]) = none) (hfits : d.fits n = true) :
    InboxReady (d.add p n .dir hdir hfree hfits) root r messageId := by
  have hle := Disk.le_add (x := .dir) hdir hfree hfits
  have hentry : ∀ t, d.node t = none ∨ d.node t = some .dir →
      (d.add p n .dir hdir hfree hfits).node t = none ∨ (d.add p n .dir hdir hfree hfits).node t = some .dir := by
    intro t ht
    rw [Disk.add_node]
    split
    · exact .inr rfl
    · exact ht
  exact ⟨hle.resolve h.root, hle.node _ _ h.dir, hentry _ h.inbox, hentry _ h.message, h.inboxFits, h.messageFits,
    h.noDots⟩

theorem resolveSessionIoRoot_ready (h : InboxReady d root r messageId) :
    ∃ d', resolveSessionIoRoot d root .inbox true = (d', some (r ++ [IoKind.inbox.name])) ∧
      InboxReady d' root r messageId ∧ d'.node (r ++ [IoKind.inbox.name]) = some .dir := by
  unfold resolveSessionIoRoot ensureKind
  rcases h.inbox with hnone | hdir
  · have hmissing : d.exists' (kindPath root .inbox) = false := Disk.exists_free h.root hnone
    have hadded := h.add h.dir hnone h.inboxFits
    have hnode : (d.add r IoKind.inbox.name .dir h.dir hnone h.inboxFits).node (r ++ [IoKind.inbox.name]) = some .dir :=
      if_pos rfl
    refine ⟨_, ?_, hadded, hnode⟩
    rw [hmissing, Bool.not_false, Bool.and_true, if_pos rfl, kindPath, Disk.mkdirs_make h.root h.dir hnone h.inboxFits]
    exact Prod.ext rfl (checkedKind_ready hadded.root hnode)
  · have hexists : d.exists' (kindPath root .inbox) = true :=
      Disk.exists_iff.mpr ⟨_, Disk.resolve_concat h.root hdir (.inr rfl)⟩
    refine ⟨d, ?_, h, hdir⟩
    rw [hexists, Bool.not_true, Bool.and_false, if_neg Bool.false_ne_true]
    exact Prod.ext rfl (checkedKind_ready h.root hdir)

/-- The message's directory is made, or is there. -/
theorem mkdirs_ready (h : InboxReady d root r messageId) (hinbox : d.node (r ++ [IoKind.inbox.name]) = some .dir) :
    ∃ d', d.mkdirs (join (r ++ [IoKind.inbox.name]) messageId).reverse = (d', .ok ()) ∧
      InboxReady d' root r messageId ∧ d'.node (join (r ++ [IoKind.inbox.name]) messageId) = some .dir := by
  rcases h.message with hnone | hdir
  · exact ⟨_, Disk.mkdirs_make (Disk.realpath_dir hinbox) hinbox hnone h.messageFits,
      h.add hinbox hnone h.messageFits, if_pos rfl⟩
  · exact ⟨d, Disk.mkdirs_there (Disk.realpath_dir hinbox) hdir, h, hdir⟩

theorem openInboxDir_ready (h : InboxReady d root r messageId) : ∃ d', openInboxDir d root messageId =
    (d', some (join (r ++ [IoKind.inbox.name]) messageId)) ∧ InboxReady d' root r messageId ∧
      d'.node (join (r ++ [IoKind.inbox.name]) messageId) = some .dir := by
  obtain ⟨d₁, h₁, hready₁, hinbox⟩ := resolveSessionIoRoot_ready h
  obtain ⟨d₂, h₂, hready₂, hdir⟩ := mkdirs_ready hready₁ hinbox
  refine ⟨d₂, ?_, hready₂, hdir⟩
  have hcheck : (d₁.exists' (join (r ++ [IoKind.inbox.name]) messageId) &&
      !(d₁.lstat (join (r ++ [IoKind.inbox.name]) messageId)).toOption.any isDirectory) = false := by
    rcases hready₁.message with hnone | hdir₁
    · rw [join, Disk.exists_free (Disk.realpath_dir hinbox) hnone, Bool.false_and]
    · have hlstat : d₁.lstat (join (r ++ [IoKind.inbox.name]) messageId) = .ok .dir :=
        Disk.lstat_iff.mpr ⟨_, Disk.resolve_real hdir₁ (.inl rfl), hdir₁⟩
      rw [hlstat, Bool.and_eq_false_iff]
      exact .inr rfl
  unfold openInboxDir
  rw [h₁]
  dsimp only
  rw [hcheck, if_neg Bool.false_ne_true, h₂]
  dsimp only
  have hinside : isPathInside (r ++ [IoKind.inbox.name]) (join (r ++ [IoKind.inbox.name]) messageId) = true :=
    isPathInside_child hready₂.noDots
  rw [Disk.realpath_dir hdir]
  simp [Except.toOption, hinside, guard]

theorem openTargetDir_ready (target : FileTarget) (h : InboxReady d target.root r target.messageId) : ∃ d',
    openTargetDir d target = (d', .ok (some (join (r ++ [IoKind.inbox.name]) target.messageId))) ∧
      InboxReady d' target.root r target.messageId ∧
        d'.node (join (r ++ [IoKind.inbox.name]) target.messageId) = some .dir := by
  obtain ⟨d₁, h₁, hready₁, hinbox⟩ := resolveSessionIoRoot_ready h
  obtain ⟨d₂, h₂, hready₂, hdir⟩ := mkdirs_ready hready₁ hinbox
  refine ⟨d₂, ?_, hready₂, hdir⟩
  unfold openTargetDir
  rw [h₁]
  dsimp only
  rw [h₂]

/-! ### When the attachments are extracted -/

/-- A file in the message's directory leaves the session as it should be. -/
theorem InboxReady.store (h : InboxReady d root r messageId) {n : Name} {bytes : List ℕ}
    (hdir : d.node (join (r ++ [IoKind.inbox.name]) messageId) = some .dir)
    (hfree : d.node (join (r ++ [IoKind.inbox.name]) messageId ++ [n]) = none) (hfits : d.fits n = true) :
    InboxReady (d.add _ n (.file bytes) hdir hfree hfits) root r messageId := by
  have hle := Disk.le_add (x := .file bytes) hdir hfree hfits
  have hbase : d.node (r ++ [IoKind.inbox.name]) = some .dir := d.parent _ _ _ hdir
  exact ⟨hle.resolve h.root, hle.node _ _ h.dir, .inr (hle.node _ _ hbase), .inr (hle.node _ _ hdir), h.inboxFits,
    h.messageFits, h.noDots⟩

theorem saveAttachment_ready (env : Env) (i : ℕ) (h : InboxReady d root r messageId) (att : List (Text × Value))
    (data : Text) : InboxReady (saveAttachment env root messageId i d att data).1 root r messageId ∧
      ((∃ saved, (saveAttachment env root messageId i d att data).2 = .ok saved) ↔
        d.fits (utf8 (attachmentFilename env i att)) = true) := by
  obtain ⟨d₁, h₁, hready, hdir⟩ := openInboxDir_ready h
  have hfits₁ : d₁.fits = d.fits := by
    have hkept := (openInboxDir_scope d root messageId).1.kept.fits
    rwa [h₁] at hkept
  unfold saveAttachment
  rw [h₁]
  dsimp only
  rw [Disk.create_in _ (Disk.realpath_dir hdir) hdir]
  by_cases hfree : d₁.node (join (r ++ [IoKind.inbox.name]) messageId ++ [utf8 (attachmentFilename env i att)]) = none
  · rw [dif_pos hfree]
    by_cases hfits : d₁.fits (utf8 (attachmentFilename env i att)) = true
    · rw [dif_pos hfits, ← hfits₁]
      exact ⟨hready.store hdir hfree hfits, fun _ => hfits, fun _ => ⟨_, rfl⟩⟩
    · rw [dif_neg hfits, ← hfits₁]
      exact ⟨hready, fun ⟨_, hok⟩ => (nomatch hok), fun hyes => absurd hyes hfits⟩
  · rw [dif_neg hfree, ← hfits₁]
    obtain ⟨x, hx⟩ := Option.ne_none_iff_exists'.mp hfree
    exact ⟨hready, fun _ => d₁.short _ _ x hx, fun _ => ⟨none, rfl⟩⟩

theorem extractAttachment_ready (env : Env) (i : ℕ) (h : InboxReady d root r messageId) (att : Value) :
    InboxReady (extractAttachment env root messageId i d att).1 root r messageId ∧
      ((∃ saved, (extractAttachment env root messageId i d att).2 = .ok saved) ↔ Extractable env d.fits i att) := by
  have hskip : (∃ saved, (d, (.ok none : Except Thrown (Option Value))).2 = .ok saved) ↔ True :=
    ⟨fun _ => trivial, fun _ => ⟨none, rfl⟩⟩
  cases att with
  | null => exact ⟨h, fun ⟨_, hok⟩ => (nomatch hok), fun hnever => (nomatch hnever)⟩
  | obj att =>
    unfold extractAttachment Extractable
    dsimp only
    split
    · rename_i data hdata
      obtain ⟨hready, hok⟩ := saveAttachment_ready env i h att data
      refine ⟨hready, hok.trans ⟨fun hfits data' hdata' => hfits, fun hall => hall data hdata⟩⟩
    · rename_i hnone
      exact ⟨h, hskip.trans ⟨fun _ data hdata => absurd hdata (hnone data), fun _ => trivial⟩⟩
  | _ => exact ⟨h, hskip⟩

/-- **The loop over the attachments** returns exactly when each element can be extracted. -/
theorem extractLoop_ready (env : Env) : ∀ (l : List Value) (i : ℕ) {d : Disk}, InboxReady d root r messageId →
    ((∃ result, (extractLoop env root messageId i d l).2 = .ok result) ↔
      ∀ j v, l[j]? = some v → Extractable env d.fits (i + j) v)
  | [], i, d, _ => ⟨fun _ j v hv => by simp at hv, fun _ => ⟨_, rfl⟩⟩
  | att :: rest, i, d, h => by
    obtain ⟨hready, hfirst⟩ := extractAttachment_ready env i h att
    have hfits := (extractAttachment_scope env root messageId i d att).kept.fits
    have hsplit : (∀ j v, (att :: rest)[j]? = some v → Extractable env d.fits (i + j) v) ↔
        Extractable env d.fits i att ∧ ∀ j v, rest[j]? = some v → Extractable env d.fits (i + 1 + j) v := by
      constructor
      · intro hall
        refine ⟨hall 0 att rfl, fun j v hv => ?_⟩
        rw [Nat.add_assoc, Nat.add_comm 1 j]
        exact hall (j + 1) v hv
      · rintro ⟨hatt, hrest⟩ j v hv
        cases j with
        | zero =>
          cases hv
          exact hatt
        | succ j =>
          rw [Nat.add_comm j 1, ← Nat.add_assoc]
          exact hrest j v hv
    rw [hsplit, ← hfirst]
    unfold extractLoop
    rcases h₁ : extractAttachment env root messageId i d att with ⟨d₁, e | saved⟩
    · constructor
      · rintro ⟨_, hok⟩
        cases hok
      · rintro ⟨⟨_, hok⟩, -⟩
        cases hok
    · rw [h₁] at hready hfits
      have hrest := extractLoop_ready env rest (i + 1) hready
      rw [hfits] at hrest
      rw [← hrest]
      dsimp only
      rcases extractLoop env root messageId (i + 1) d₁ rest with ⟨d₂, e | ⟨moved, changed⟩⟩
      · constructor
        · rintro ⟨_, hok⟩
          cases hok
        · rintro ⟨-, _, hok⟩
          cases hok
      · exact ⟨fun _ => ⟨⟨saved, rfl⟩, _, rfl⟩, fun _ => ⟨_, rfl⟩⟩

theorem extractAttachmentFiles_ready (env : Env) (h : InboxReady d root r messageId)
    (hsafe : isSafeAttachmentName messageId = true) {contentStr : Text} {parsed : List (Text × Value)}
    (hparse : parse contentStr = some (.obj parsed)) :
    ((∃ content, (extractAttachmentFiles env root messageId contentStr d).2 = .ok content) ↔
      ∀ l, parsed.lookup (ofString "attachments") = some (.arr l) → ∀ i v, l[i]? = some v →
        Extractable env d.fits i v) := by
  unfold extractAttachmentFiles
  rw [hparse]
  dsimp only
  split
  · rename_i l hl
    have hloop := extractLoop_ready env l 0 h
    rw [hsafe, Bool.not_true, if_neg Bool.false_ne_true]
    have hall : (∀ l', parsed.lookup (ofString "attachments") = some (.arr l') → ∀ i v, l'[i]? = some v →
        Extractable env d.fits i v) ↔ ∀ i v, l[i]? = some v → Extractable env d.fits (0 + i) v := by
      simp [hl]
    rw [hall, ← hloop]
    rcases extractLoop env root messageId 0 d l with ⟨d₁, e | ⟨moved, changed⟩⟩
    · exact ⟨fun ⟨_, hok⟩ => (nomatch hok), fun ⟨_, hok⟩ => (nomatch hok)⟩
    · exact ⟨fun _ => ⟨_, rfl⟩, fun _ => ⟨_, rfl⟩⟩
  · rename_i hnone
    exact ⟨fun _ l hl => absurd hl (hnone l), fun _ => ⟨_, rfl⟩⟩

/-! ### When the files are copied -/

/-- The name is safe and names a file in the directory. -/
def sentAs (d : Disk) (dir : List Name) (filename : Text) : Bool :=
  isSafeAttachmentName filename && (d.node (join dir filename)).any isFile

def forwardedAs (targetId filename : Text) : ForwardedAttachment :=
  ⟨filename, filename, ofString "inbox/" ++ targetId ++ unit '/' :: filename⟩

/-- In a directory that is no link, the files are what is accepted. -/
theorem acceptsSource_eq {base : List Name} {mid : Text} (hmid : NoDots (utf8 mid))
    (hdir : d.node (join base mid) = some .dir) (filename : Text) :
    acceptsSource d base (join (join base mid) filename) = (d.node (join (join base mid) filename)).any isFile := by
  have hreal := Disk.realpath_dir hdir
  cases hnode : d.node (join (join base mid) filename) with
  | none =>
    have hmissing : d.exists' (join (join base mid) filename) = false := Disk.exists_free hreal hnode
    rw [Option.any_none, acceptsSource, hmissing, Bool.false_and, Bool.false_and]
  | some x =>
    have hlstat : d.lstat (join (join base mid) filename) = .ok x :=
      Disk.lstat_iff.mpr ⟨_, Disk.resolve_real hnode (.inl rfl), hnode⟩
    by_cases hfile : isFile x = true
    · obtain ⟨bytes, rfl⟩ := isFile_iff.mp hfile
      have hpath : d.realpath (join (join base mid) filename) = .ok (join (join base mid) filename) :=
        Disk.resolve_real hnode (.inr rfl)
      have hdots : startsWithDots (relative base (join (join base mid) filename)) = false := by
        rw [join, join, List.append_assoc]
        exact startsWithDots_below hmid
      unfold acceptsSource
      rw [hlstat, hpath, Disk.exists_iff.mpr ⟨_, hpath⟩]
      simp [Except.toOption, isFile, hdots]
    · rw [acceptsSource, hlstat]
      simp [Except.toOption, hfile]

/-- The loop has copied these names of `dir` to `target`, and changed nothing else. -/
structure CopiedNames (d₁ d : Disk) (dir target : List Name) (done : List Name) : Prop where
  le : d₁.Le d
  copied : ∀ n ∈ done, ∃ bytes, d₁.node (dir ++ [n]) = some (.file bytes) ∧ d.node (target ++ [n]) = some (.file bytes)
  rest : ∀ t, (∀ n ∈ done, t ≠ target ++ [n]) → d.node t = d₁.node t

theorem CopiedNames.source {d₁ : Disk} {dir target done : List Name} (h : CopiedNames d₁ d dir target done)
    (hne : dir ≠ target) (n : Name) : d.node (dir ++ [n]) = d₁.node (dir ++ [n]) :=
  h.rest _ fun _ _ heq => hne (List.append_inj' heq rfl).1

section loop

variable {d₁ : Disk} {base target : List Name} {mid targetId : Text}

variable (targetId) in
/-- The turn of the loop for a name. -/
theorem forwardFile_eq (hmid : NoDots (utf8 mid)) (hdir : d₁.node (join base mid) = some .dir)
    (htarget : d₁.node target = some .dir) (hne : join base mid ≠ target)
    (hfree : ∀ n, d₁.node (target ++ [n]) = none) {done : List Name} (h : CopiedNames d₁ d (join base mid) target done)
    (filename : Text) :
    (sentAs d₁ (join base mid) filename = false ∧
        forwardFile base (join base mid) target targetId d filename = (d, .ok none)) ∨
      (sentAs d₁ (join base mid) filename = true ∧ utf8 filename ∉ done ∧ ∃ d',
        forwardFile base (join base mid) target targetId d filename = (d', .ok (some (forwardedAs targetId filename))) ∧
          CopiedNames d₁ d' (join base mid) target (done ++ [utf8 filename])) ∨
      (sentAs d₁ (join base mid) filename = true ∧ utf8 filename ∈ done ∧
        forwardFile base (join base mid) target targetId d filename = (d, .error (.system .eexist))) := by
  have haccept : (isSafeAttachmentName filename && acceptsSource d base (join (join base mid) filename)) =
      sentAs d₁ (join base mid) filename := by
    rw [acceptsSource_eq hmid (h.le.node _ _ hdir), sentAs, join, h.source hne, join]
  unfold forwardFile
  rw [haccept]
  by_cases hsent : sentAs d₁ (join base mid) filename = true
  · rw [if_pos hsent]
    refine .inr ?_
    obtain ⟨x, hx, hfile⟩ := (Option.any_eq_true _ _).mp ((Bool.and_eq_true _ _).mp hsent).2
    obtain ⟨bytes, rfl⟩ := isFile_iff.mp hfile
    have hsource : d.node (join (join base mid) filename) = some (.file bytes) := h.le.node _ _ hx
    have hread : d.readFile (join (join base mid) filename) = .ok bytes :=
      Disk.readFile_iff.mpr ⟨_, Disk.resolve_real hsource (.inr rfl), hsource⟩
    have hcreate := Disk.create_in (n := utf8 filename) (.file bytes) (Disk.realpath_dir (h.le.node _ _ htarget))
      (h.le.node _ _ htarget)
    unfold Disk.copyFile
    rw [hread]
    by_cases hdone : utf8 filename ∈ done
    · refine .inr ⟨hsent, hdone, ?_⟩
      obtain ⟨bytes', -, hthere⟩ := h.copied _ hdone
      rw [dif_neg (by simp [hthere])] at hcreate
      simp only [Except.bind, hcreate]
    · refine .inl ⟨hsent, hdone, ?_⟩
      have hnone : d.node (target ++ [utf8 filename]) = none := by
        refine (h.rest _ fun n hn heq => hdone ?_).trans (hfree _)
        cases (List.append_inj' heq rfl).2
        exact hn
      have hfits : d.fits (utf8 filename) = true := d.short _ _ _ hsource
      rw [dif_pos hnone, dif_pos hfits] at hcreate
      refine ⟨d.add _ _ _ _ hnone hfits, by simp only [Except.bind, hcreate]; rfl, h.le.trans (Disk.le_add ..), ?_, ?_⟩
      · intro n hn
        rcases List.mem_append.mp hn with hold | hnew
        · obtain ⟨bytes', hfrom, hto⟩ := h.copied n hold
          exact ⟨bytes', hfrom, (Disk.le_add ..).node _ _ hto⟩
        · cases List.mem_singleton.mp hnew
          exact ⟨bytes, hx, if_pos rfl⟩
      · intro t ht
        rw [Disk.add_node, if_neg (ht _ (List.mem_append_right _ (List.mem_singleton.mpr rfl)))]
        exact h.rest t fun n hn => ht n (List.mem_append_left _ hn)
  · rw [if_neg hsent]
    exact .inl ⟨Bool.eq_false_iff.mpr hsent, rfl⟩

theorem forwardLoop_cons {sourceDir : List Name} {filename : Text} {d' : Disk} {a : Option ForwardedAttachment}
    (h : forwardFile base sourceDir target targetId d filename = (d', .ok a)) (rest : List Text) :
    forwardLoop base sourceDir target targetId d (filename :: rest) =
      ((forwardLoop base sourceDir target targetId d' rest).1,
        (forwardLoop base sourceDir target targetId d' rest).2.map fun l => a.toList ++ l) := by
  rw [forwardLoop, h]
  dsimp only
  rcases forwardLoop base sourceDir target targetId d' rest with ⟨d₂, _ | _⟩ <;> rfl

/-- **The loop over the names** copies each file that is named, and throws at a name that it has copied before. -/
theorem forwardLoop_eq (targetId : Text) (hmid : NoDots (utf8 mid)) (hdir : d₁.node (join base mid) = some .dir)
    (htarget : d₁.node target = some .dir) (hne : join base mid ≠ target)
    (hfree : ∀ n, d₁.node (target ++ [n]) = none) : ∀ (filenames : List Text) {d : Disk} {done : List Name},
      CopiedNames d₁ d (join base mid) target done → done.Nodup →
      ((done ++ (filenames.filter (sentAs d₁ (join base mid))).map utf8).Nodup ∧ ∃ d',
          forwardLoop base (join base mid) target targetId d filenames =
            (d', .ok ((filenames.filter (sentAs d₁ (join base mid))).map (forwardedAs targetId))) ∧
          CopiedNames d₁ d' (join base mid) target (done ++ (filenames.filter (sentAs d₁ (join base mid))).map utf8)) ∨
        (¬(done ++ (filenames.filter (sentAs d₁ (join base mid))).map utf8).Nodup ∧
          ∃ e, (forwardLoop base (join base mid) target targetId d filenames).2 = .error e)
  | [], d, done, h, hdone => by
    refine .inl ⟨by simpa using hdone, d, rfl, ?_⟩
    rw [List.filter_nil, List.map_nil, List.append_nil]
    exact h
  | filename :: rest, d, done, h, hdone => by
    rcases forwardFile_eq targetId hmid hdir htarget hne hfree h filename with
      ⟨hsent, hturn⟩ | ⟨hsent, hnew, d₂, hturn, h₂⟩ | ⟨hsent, hold, hturn⟩
    · rw [List.filter_cons_of_neg (by rw [hsent]; exact Bool.false_ne_true), forwardLoop_cons hturn]
      refine (forwardLoop_eq targetId hmid hdir htarget hne hfree rest h hdone).imp ?_ ?_
      · rintro ⟨hnodup, d', hloop, hcopied⟩
        exact ⟨hnodup, d', by rw [hloop]; rfl, hcopied⟩
      · rintro ⟨hdup, e, hloop⟩
        exact ⟨hdup, e, by rw [hloop]; rfl⟩
    · have hdone₂ : (done ++ [utf8 filename]).Nodup := by
        rw [← List.concat_eq_append]
        exact List.Nodup.concat hnew hdone
      rw [List.filter_cons_of_pos hsent, List.map_cons, List.map_cons, forwardLoop_cons hturn,
        ← List.singleton_append (l := (rest.filter _).map utf8), ← List.append_assoc]
      refine (forwardLoop_eq targetId hmid hdir htarget hne hfree rest h₂ hdone₂).imp ?_ ?_
      · rintro ⟨hnodup, d', hloop, hcopied⟩
        exact ⟨hnodup, d', by rw [hloop]; rfl, hcopied⟩
      · rintro ⟨hdup, e, hloop⟩
        exact ⟨hdup, e, by rw [hloop]; rfl⟩
    · refine .inr ⟨fun hnodup => ?_, .system .eexist, by rw [forwardLoop, hturn]⟩
      rw [List.filter_cons_of_pos hsent, List.map_cons] at hnodup
      exact (List.nodup_append.mp hnodup).2.2 _ hold _ List.mem_cons_self rfl

end loop

/-! ### The delegation -/

/-- What `routeAgentMessage` does with the files and the content of a message. -/
def delegate (env : Env) (sourceRoot targetRoot : List Name) (msg : InboundMessage) (a2aMsgId : Text) (d : Disk)
    (rows : List InboundMessage) : Disk × Except Thrown (List InboundMessage) :=
  match forwardFileAttachments sourceRoot targetRoot msg a2aMsgId d with
  | (d, .error e) => (d, .error e)
  | (d, .ok content) => writeSessionMessage env targetRoot ⟨a2aMsgId, content⟩ d rows

/-- A working file system: the two sessions are there, what their containers may have replaced by links is not, and
the new message has a name of its own. -/
structure Working (d : Disk) (sourceRoot targetRoot : List Name) (messageId a2aMsgId : Text) (rs rt : List Name) :
    Prop where
  source : d.realpath sourceRoot = .ok rs
  outbox : d.node (rs ++ [IoKind.outbox.name]) = none ∨ d.node (rs ++ [IoKind.outbox.name]) = some .dir
  sent : d.node (join (rs ++ [IoKind.outbox.name]) messageId) = none ∨
    d.node (join (rs ++ [IoKind.outbox.name]) messageId) = some .dir
  sourceSafe : isSafeAttachmentName messageId = true
  sourceNoDots : NoDots (utf8 messageId)
  target : InboxReady d targetRoot rt a2aMsgId
  fresh : d.node (join (rt ++ [IoKind.inbox.name]) a2aMsgId) = none
  targetSafe : isSafeAttachmentName a2aMsgId = true

/-- The names of the files that are there, as the file system has them. -/
def sentNames (d : Disk) (rs : List Name) (messageId : Text) (filenames : List Text) : List Text :=
  filenames.filter (sentAs d (join (rs ++ [IoKind.outbox.name]) messageId))

theorem outbox_ne_inbox : IoKind.outbox.name ≠ IoKind.inbox.name := by decide

theorem InboxReady.of_le {d' : Disk} (h : InboxReady d root r messageId) (hle : d.Le d')
    (hdir : d.node (join (r ++ [IoKind.inbox.name]) messageId) = some .dir) : InboxReady d' root r messageId where
  root := hle.resolve h.root
  dir := hle.node _ _ h.dir
  inbox := .inr (hle.node _ _ (d.parent _ _ _ hdir))
  message := .inr (hle.node _ _ hdir)
  inboxFits := by rw [hle.fits, h.inboxFits]
  messageFits := by rw [hle.fits, h.messageFits]
  noDots := h.noDots

section delegation

variable {sourceRoot targetRoot rs rt : List Name} {a2aMsgId : Text}

/-- Nothing is sent where the message has no directory. -/
theorem sentNames_none (h : d.node (join (rs ++ [IoKind.outbox.name]) messageId) = none) (filenames : List Text) :
    sentNames d rs messageId filenames = [] := by
  refine List.filter_eq_nil_iff.mpr fun filename _ hsent => ?_
  rw [sentAs, join, node_below d h [utf8 filename], Option.any_none, Bool.and_false] at hsent
  cases hsent

/-- New directories change nothing about the files that are there. -/
theorem sentNames_dirs (rs : List Name) (messageId : Text) {d' : Disk} (hle : d.Le d') (hdirs : OnlyDirs d d')
    (filenames : List Text) :
    sentNames d' rs messageId filenames = sentNames d rs messageId filenames := by
  refine List.filter_congr fun filename _ => ?_
  rw [sentAs, sentAs]
  congr 1
  by_cases hsame : d'.node (join (join (rs ++ [IoKind.outbox.name]) messageId) filename) =
      d.node (join (join (rs ++ [IoKind.outbox.name]) messageId) filename)
  · rw [hsame]
  · have hnone : d.node (join (join (rs ++ [IoKind.outbox.name]) messageId) filename) = none := by
      by_contra hsome
      obtain ⟨x, hx⟩ := Option.ne_none_iff_exists'.mp hsome
      exact hsame (by rw [hx, hle.node _ _ hx])
    rw [hdirs _ hsame, hnone]
    rfl

theorem forwardAttachedFiles_eq (h : Working d sourceRoot targetRoot messageId a2aMsgId rs rt) (filenames : List Text) :
    (((sentNames d rs messageId filenames).map utf8).Nodup ∧ ∃ d',
        forwardAttachedFiles ⟨sourceRoot, messageId, filenames⟩ ⟨targetRoot, a2aMsgId⟩ d =
          (d', .ok ((sentNames d rs messageId filenames).map (forwardedAs a2aMsgId))) ∧
        d.Le d' ∧ InboxReady d' targetRoot rt a2aMsgId ∧
        ∀ n ∈ (sentNames d rs messageId filenames).map utf8, ∃ bytes,
          d.node (join (rs ++ [IoKind.outbox.name]) messageId ++ [n]) = some (.file bytes) ∧
            d'.node (join (rt ++ [IoKind.inbox.name]) a2aMsgId ++ [n]) = some (.file bytes)) ∨
      (¬((sentNames d rs messageId filenames).map utf8).Nodup ∧
        ∃ e, (forwardAttachedFiles ⟨sourceRoot, messageId, filenames⟩ ⟨targetRoot, a2aMsgId⟩ d).2 = .error e) := by
  have hnothing : sentNames d rs messageId filenames = [] →
      forwardAttachedFiles ⟨sourceRoot, messageId, filenames⟩ ⟨targetRoot, a2aMsgId⟩ d = (d, .ok []) →
      ((sentNames d rs messageId filenames).map utf8).Nodup ∧ ∃ d',
        forwardAttachedFiles ⟨sourceRoot, messageId, filenames⟩ ⟨targetRoot, a2aMsgId⟩ d =
          (d', .ok ((sentNames d rs messageId filenames).map (forwardedAs a2aMsgId))) ∧
        d.Le d' ∧ InboxReady d' targetRoot rt a2aMsgId ∧
        ∀ n ∈ (sentNames d rs messageId filenames).map utf8, ∃ bytes,
          d.node (join (rs ++ [IoKind.outbox.name]) messageId ++ [n]) = some (.file bytes) ∧
            d'.node (join (rt ++ [IoKind.inbox.name]) a2aMsgId ++ [n]) = some (.file bytes) := by
    intro hnil hforward
    rw [hnil, hforward]
    exact ⟨List.nodup_nil, d, rfl, .refl d, h.target, fun n hn => by simp at hn⟩
  by_cases hlength : filenames.length = 0
  · refine .inl (hnothing ?_ (by rw [forwardAttachedFiles, if_pos hlength]))
    rw [List.length_eq_zero_iff.mp hlength]
    rfl
  rcases h.sent with hnone | hdir
  · refine .inl (hnothing (sentNames_none hnone filenames) ?_)
    rw [forwardAttachedFiles, if_neg hlength, resolveSessionIoRoot_false]
    cases hchecked : checkedKind d sourceRoot .outbox with
    | none => rfl
    | some base =>
      obtain ⟨r, hr, rfl, hbase, -⟩ := checkedKind_some hchecked
      cases hr.symm.trans h.source
      have hmissing : d.exists' (join (rs ++ [IoKind.outbox.name]) messageId) = false :=
        Disk.exists_free (Disk.realpath_dir hbase) hnone
      dsimp only
      rw [h.sourceSafe, h.targetSafe, hmissing]
      rfl
  · have houtbox : d.node (rs ++ [IoKind.outbox.name]) = some .dir := d.parent _ _ _ hdir
    have hexists : d.exists' (join (rs ++ [IoKind.outbox.name]) messageId) = true :=
      Disk.exists_iff.mpr ⟨_, Disk.realpath_dir hdir⟩
    have hfresh : Fresh d ⟨targetRoot, a2aMsgId⟩ := by
      intro r hr
      cases hr.symm.trans h.target.root
      simpa [join] using h.fresh
    obtain ⟨d₁, hopen, hready, htarget⟩ := openTargetDir_ready ⟨targetRoot, a2aMsgId⟩ h.target
    obtain ⟨hinside, hdirs, -⟩ := openTargetDir_scope hfresh
    rw [hopen] at hinside hdirs
    have hfree : ∀ n, d₁.node (join (rt ++ [IoKind.inbox.name]) a2aMsgId ++ [n]) = none := by
      intro n
      by_contra hsome
      have hold := node_below d h.fresh [n]
      have hchanged : d₁.node (join (rt ++ [IoKind.inbox.name]) a2aMsgId ++ [n]) ≠
          d.node (join (rt ++ [IoKind.inbox.name]) a2aMsgId ++ [n]) := by rwa [hold]
      rcases hinside.dirs _ rt hchanged (hdirs _ hchanged) h.target.root with heq | heq
      · have hlen := congrArg List.length heq
        simp [join] at hlen
      · have hlen := congrArg List.length heq
        simp [join] at hlen
    have hne : join (rs ++ [IoKind.outbox.name]) messageId ≠ join (rt ++ [IoKind.inbox.name]) a2aMsgId := by
      intro heq
      have hparent := (List.append_inj' heq rfl).1
      exact outbox_ne_inbox (List.singleton_inj.mp (List.append_inj' hparent rfl).2)
    have hforward : forwardAttachedFiles ⟨sourceRoot, messageId, filenames⟩ ⟨targetRoot, a2aMsgId⟩ d =
        forwardLoop (rs ++ [IoKind.outbox.name]) (join (rs ++ [IoKind.outbox.name]) messageId)
          (join (rt ++ [IoKind.inbox.name]) a2aMsgId) a2aMsgId d₁ filenames := by
      rw [forwardAttachedFiles, if_neg hlength, resolveSessionIoRoot_false, checkedKind_ready h.source houtbox]
      dsimp only
      rw [h.sourceSafe, h.targetSafe, hexists, hopen]
      rfl
    have hsame := sentNames_dirs rs messageId hinside.kept hdirs filenames
    have hstart : CopiedNames d₁ d₁ (join (rs ++ [IoKind.outbox.name]) messageId)
        (join (rt ++ [IoKind.inbox.name]) a2aMsgId) [] := ⟨.refl d₁, fun n hn => by simp at hn, fun _ _ => rfl⟩
    have hloop := forwardLoop_eq a2aMsgId h.sourceNoDots (hinside.kept.node _ _ hdir) htarget hne hfree
      filenames hstart List.nodup_nil
    rw [← sentNames, hsame, List.nil_append, ← hforward] at hloop
    refine hloop.imp_left ?_
    rintro ⟨hnodup, d', hresult, hcopied⟩
    refine ⟨hnodup, d', hresult, hinside.kept.trans hcopied.le, hready.of_le hcopied.le htarget, fun n hn => ?_⟩
    obtain ⟨bytes, hfrom, hto⟩ := hcopied.copied n hn
    refine ⟨bytes, ?_, hto⟩
    by_contra hchanged
    have hdir₁ := hdirs _ fun heq => hchanged (heq ▸ hfrom)
    rw [hfrom] at hdir₁
    cases hdir₁

/-! ### The content that is written -/

theorem extractable_forwarded (env : Env) (fits : Name → Bool) (i : ℕ) (a : ForwardedAttachment) :
    Extractable env fits i a.value := by
  intro data hdata
  have hnone : a.value.prop "data" = none := by
    show List.lookup (ofString "data") _ = none
    simp only [List.lookup_cons, List.lookup_nil]
    rw [show (ofString "data" == ofString "name") = false by decide,
      show (ofString "data" == ofString "filename") = false by decide,
      show (ofString "data" == ofString "type") = false by decide,
      show (ofString "data" == ofString "localPath") = false by decide]
  exact absurd (hnone.symm.trans hdata) (nomatch ·)

theorem ordered_forwarded (a : ForwardedAttachment) : a.value.Ordered := by
  refine ⟨?_, trivial, trivial, trivial, trivial, trivial⟩
  show InOrder ([ofString "name", ofString "filename", ofString "type", ofString "localPath"])
  unfold InOrder
  decide

theorem presentAttachments_iff {parsed : List (Text × Value)} {P : ℕ → Value → Prop} :
    (∀ l, parsed.lookup (ofString "attachments") = some (.arr l) → ∀ i v, l[i]? = some v → P i v) ↔
      ∀ i v, (presentAttachments parsed)[i]? = some v → P i v := by
  unfold presentAttachments
  split
  · rename_i l hl
    exact ⟨fun h => h l hl, fun h l' hl' => by cases hl.symm.trans hl'; exact h⟩
  · rename_i hnone
    exact ⟨fun _ i v hv => by simp at hv, fun _ l hl => absurd hl (hnone l)⟩

/-- What is parsed of the content that `forwardFileAttachments` writes. -/
theorem parse_forwarded {parsed : List (Text × Value)} (ho : (Json.obj parsed : Value).Ordered)
    (attachments : List ForwardedAttachment) : ∃ fields,
      parse (stringify (.obj (insertField parsed (ofString "attachments")
        (.arr (presentAttachments parsed ++ attachments.map ForwardedAttachment.value))))) = some (.obj fields) ∧
      presentAttachments fields =
        (presentAttachments parsed ++ attachments.map ForwardedAttachment.value).map rewritten := by
  have hpresent : (Json.arr (presentAttachments parsed) : Value).Ordered := by
    unfold presentAttachments
    split
    · rename_i l hl
      exact lookup_ordered ho hl
    · trivial
  have hall : (Json.arr (presentAttachments parsed ++ attachments.map ForwardedAttachment.value) : Value).Ordered :=
    allNamesList_append hpresent (allNamesList_of fun v hv => by
      obtain ⟨a, -, rfl⟩ := List.mem_map.mp hv
      exact ordered_forwarded a)
  let o : JsonObject := ⟨_, ordered_insertField ho (ofString "attachments") hall⟩
  refine ⟨(cloneJson o).fields, parse_clone o, ?_⟩
  have hlookup : (cloneJson o).fields.lookup (ofString "attachments") =
      some (.arr ((presentAttachments parsed ++ attachments.map ForwardedAttachment.value).map rewritten)) := by
    rw [← rewritten_arr]
    have hget := get_cloneJson o (ofString "attachments")
    rw [JsonObject.get, JsonObject.get, lookup_insertField, if_pos rfl] at hget
    exact hget
  rw [presentAttachments, hlookup]

/-- The elements of the content that is written can be extracted when those that were there can. -/
theorem extractable_iff (env : Env) (fits : Name → Bool) {parsed : List (Text × Value)}
    (ho : (Json.obj parsed : Value).Ordered) (attachments : List ForwardedAttachment) :
    (∀ i v, ((presentAttachments parsed ++ attachments.map ForwardedAttachment.value).map rewritten)[i]? = some v →
        Extractable env fits i v) ↔
      ∀ i v, (presentAttachments parsed)[i]? = some v → Extractable env fits i v ∧ ∀ neg, v ≠ .num (.infinity neg) := by
  have hpresent : ∀ (i : ℕ) (v : Value), (presentAttachments parsed)[i]? = some v → v.Ordered := by
    intro i v hv
    unfold presentAttachments at hv
    split at hv
    · rename_i l hl
      exact allNamesList_mem (lookup_ordered ho hl) (List.mem_of_getElem? hv)
    · simp at hv
  constructor
  · intro h i v hv
    have hlt : i < (presentAttachments parsed).length := (List.getElem?_eq_some_iff.mp hv).1
    refine (extractable_rewritten (hpresent i v hv)).mp (h i (rewritten v) ?_)
    rw [List.getElem?_map, List.getElem?_append_left hlt, hv]
    rfl
  · intro h i v hv
    rw [List.getElem?_map, List.getElem?_append] at hv
    obtain ⟨w, hw, rfl⟩ := Option.map_eq_some_iff.mp hv
    split at hw
    · exact (extractable_rewritten (hpresent i w hw)).mpr (h i w hw)
    · obtain ⟨a, ha⟩ := List.mem_map.mp (List.mem_of_getElem? hw)
      rw [← ha.2]
      refine (extractable_rewritten (ordered_forwarded a)).mpr ⟨extractable_forwarded env fits i a, fun neg => ?_⟩
      exact nofun

/-! ### When a delegation survives its files -/

/-- What is asked of the references: no file comes twice, and each attachment can be extracted; where the content is
written anew, a number out of range becomes `null`. -/
structure SafeReferences (env : Env) (d : Disk) (rs : List Name) (messageId : Text) (parsed : List (Text × Value)) :
    Prop where
  distinct : ((sentNames d rs messageId (fileNames parsed)).map utf8).Nodup
  attachments : ∀ l, parsed.lookup (ofString "attachments") = some (.arr l) → ∀ i v, l[i]? = some v →
    Extractable env d.fits i v ∧ (fileNames parsed ≠ [] → ∀ neg, v ≠ .num (.infinity neg))

/-- The delegation goes through, and each file that is named and is there is copied and listed once. -/
structure Delegated (env : Env) (d : Disk) (sourceRoot targetRoot rs rt : List Name) (msg : InboundMessage)
    (a2aMsgId : Text) (parsed : List (Text × Value)) (rows : List InboundMessage) : Prop where
  returns : ∃ rows', (delegate env sourceRoot targetRoot msg a2aMsgId d rows).2 = .ok rows'
  copied : ∀ filename ∈ fileNames parsed, isSafeAttachmentName filename = true → ∀ bytes,
    d.node (rs ++ [IoKind.outbox.name, utf8 msg.id, utf8 filename]) = some (.file bytes) →
      (delegate env sourceRoot targetRoot msg a2aMsgId d rows).1.node
        (rt ++ [IoKind.inbox.name, utf8 a2aMsgId, utf8 filename]) = some (.file bytes)
  listed : ∀ filename ∈ fileNames parsed, isSafeAttachmentName filename = true → ∀ bytes,
    d.node (rs ++ [IoKind.outbox.name, utf8 msg.id, utf8 filename]) = some (.file bytes) →
      ∃ attachments, (forwardAttachedFiles ⟨sourceRoot, msg.id, fileNames parsed⟩ ⟨targetRoot, a2aMsgId⟩ d).2 =
          .ok attachments ∧ (attachments.filter fun a => utf8 a.filename = utf8 filename).length = 1

theorem writeSessionMessage_iff (env : Env) (root : List Name) (message : InboundMessage) (d : Disk)
    (rows : List InboundMessage) : (∃ rows', (writeSessionMessage env root message d rows).2 = .ok rows') ↔
      ∃ content, (extractAttachmentFiles env root message.id message.content d).2 = .ok content := by
  unfold writeSessionMessage
  rcases extractAttachmentFiles env root message.id message.content d with ⟨d', e | content⟩
  · exact ⟨fun ⟨_, h⟩ => (nomatch h), fun ⟨_, h⟩ => (nomatch h)⟩
  · exact ⟨fun _ => ⟨content, rfl⟩, fun _ => ⟨_, rfl⟩⟩

theorem le_writeSessionMessage (env : Env) (root : List Name) (message : InboundMessage) (d : Disk)
    (rows : List InboundMessage) : d.Le (writeSessionMessage env root message d rows).1 := by
  have hkept := (extractAttachmentFiles_scope env root message.id message.content d).kept
  unfold writeSessionMessage
  rcases hextract : extractAttachmentFiles env root message.id message.content d with ⟨d', e | content⟩
  all_goals
    rw [hextract] at hkept
    exact hkept

/-- A name that is in a list without repetition is there once. -/
theorem length_filter_eq_one {α β : Type} [DecidableEq β] {f : α → β} {l : List α} (hnodup : (l.map f).Nodup) {a : α}
    (ha : a ∈ l) : (l.filter fun x => f x = f a).length = 1 := by
  rw [← List.countP_eq_length_filter]
  have hcount : (l.map f).count (f a) = 1 := List.count_eq_one_of_mem hnodup (List.mem_map_of_mem ha)
  rw [List.count, List.countP_map] at hcount
  exact (congrArg (l.countP ·) (funext fun x => (beq_eq_decide (f x) (f a)).symm)).trans hcount

/-- A file that is named safely and is there is among the names that are sent. -/
theorem mem_sentNames {filenames : List Text} {filename : Text} (hmem : filename ∈ filenames)
    (hsafe : isSafeAttachmentName filename = true) {bytes : List ℕ}
    (hfile : d.node (rs ++ [IoKind.outbox.name, utf8 messageId, utf8 filename]) = some (.file bytes)) :
    filename ∈ sentNames d rs messageId filenames := by
  have hpath : join (join (rs ++ [IoKind.outbox.name]) messageId) filename =
      rs ++ [IoKind.outbox.name, utf8 messageId, utf8 filename] := by simp [join]
  refine List.mem_filter.mpr ⟨hmem, ?_⟩
  rw [sentAs, hsafe, hpath, hfile]
  rfl

/-- **When a delegation survives its files**: with a working file system it goes through, with each file that is
named and is there copied and listed once, exactly when no file is named twice and each attachment can be
extracted. -/
theorem delegation_iff {env : Env} {msg : InboundMessage} {parsed : List (Text × Value)} {syntaxMessage : Text → String}
    (hcontent : parseOutboundContent syntaxMessage msg.content = .ok parsed)
    (hworking : Working d sourceRoot targetRoot msg.id a2aMsgId rs rt) (rows : List InboundMessage) :
    Delegated env d sourceRoot targetRoot rs rt msg a2aMsgId parsed rows ↔ SafeReferences env d rs msg.id parsed := by
  have hparse := parse_of_admissible hcontent
  by_cases hnames : fileNames parsed = []
  · have hforward : forwardFileAttachments sourceRoot targetRoot msg a2aMsgId d = (d, .ok msg.content) := by
      unfold forwardFileAttachments
      rw [hparse]
      dsimp only
      rw [hnames]
      rfl
    have hdelegate : delegate env sourceRoot targetRoot msg a2aMsgId d rows =
        writeSessionMessage env targetRoot ⟨a2aMsgId, msg.content⟩ d rows := by
      unfold delegate
      rw [hforward]
    have hreturns := (writeSessionMessage_iff env targetRoot ⟨a2aMsgId, msg.content⟩ d rows).trans
      (extractAttachmentFiles_ready env hworking.target hworking.targetSafe hparse)
    rw [← hdelegate] at hreturns
    constructor
    · intro h
      refine ⟨?_, fun l hl i v hv => ⟨hreturns.mp h.returns l hl i v hv, fun hne => absurd hnames hne⟩⟩
      rw [hnames]
      exact List.nodup_nil
    · intro h
      refine ⟨hreturns.mpr fun l hl i v hv => (h.attachments l hl i v hv).1, fun filename hmem => ?_,
        fun filename hmem => ?_⟩
      all_goals
        rw [hnames] at hmem
        cases hmem
  · have hlength : (fileNames parsed).length ≠ 0 := fun h => hnames (List.length_eq_zero_iff.mp h)
    rcases forwardAttachedFiles_eq hworking (fileNames parsed) with
      ⟨hnodup, d', hattached, hle, hready, hcopied⟩ | ⟨hdup, e, hattached⟩
    · have ho := parse_ordered hparse
      obtain ⟨fields, hfields, hpresent⟩ := parse_forwarded ho
        ((sentNames d rs msg.id (fileNames parsed)).map (forwardedAs a2aMsgId))
      have hdelegate : delegate env sourceRoot targetRoot msg a2aMsgId d rows = writeSessionMessage env targetRoot
          ⟨a2aMsgId, stringify (.obj (insertField parsed (ofString "attachments") (.arr (presentAttachments parsed ++
            ((sentNames d rs msg.id (fileNames parsed)).map (forwardedAs a2aMsgId)).map ForwardedAttachment.value))))⟩
          d' rows := by
        unfold delegate forwardFileAttachments
        rw [hparse]
        dsimp only
        rw [if_neg hlength, hattached]
      have hreturns := (writeSessionMessage_iff env targetRoot ⟨a2aMsgId, _⟩ d' rows).trans
        (extractAttachmentFiles_ready env hready hworking.targetSafe hfields)
      rw [← hdelegate, presentAttachments_iff, hpresent, extractable_iff env d'.fits ho, hle.fits,
        ← presentAttachments_iff] at hreturns
      constructor
      · intro h
        refine ⟨hnodup, fun l hl i v hv => ?_⟩
        obtain ⟨hextract, hfinite⟩ := hreturns.mp h.returns l hl i v hv
        exact ⟨hextract, fun _ => hfinite⟩
      · intro h
        have hall := hreturns.mpr fun l hl i v hv =>
          ⟨(h.attachments l hl i v hv).1, (h.attachments l hl i v hv).2 hnames⟩
        refine ⟨hall, fun filename hmem hsafe bytes hfile => ?_, fun filename hmem hsafe bytes hfile => ?_⟩
        · have hsent := mem_sentNames hmem hsafe hfile
          obtain ⟨bytes', hfrom, hto⟩ := hcopied _ (List.mem_map_of_mem hsent)
          have hpath : join (rs ++ [IoKind.outbox.name]) msg.id ++ [utf8 filename] =
              rs ++ [IoKind.outbox.name, utf8 msg.id, utf8 filename] := by simp [join]
          rw [hpath, hfile] at hfrom
          cases hfrom
          rw [hdelegate]
          exact (le_writeSessionMessage ..).node _ _ (by simpa [join] using hto)
        · have hsent := mem_sentNames hmem hsafe hfile
          refine ⟨_, by rw [hattached], ?_⟩
          have hmapped : (((sentNames d rs msg.id (fileNames parsed)).map (forwardedAs a2aMsgId)).map
              fun a => utf8 a.filename).Nodup := by
            rw [List.map_map]
            exact hnodup
          exact length_filter_eq_one hmapped (List.mem_map_of_mem (f := forwardedAs a2aMsgId) hsent)
    · have hdelegate : (delegate env sourceRoot targetRoot msg a2aMsgId d rows).2 = .error e := by
        unfold delegate forwardFileAttachments
        rw [hparse]
        dsimp only
        rw [if_neg hlength]
        rcases hforward : forwardAttachedFiles ⟨sourceRoot, msg.id, fileNames parsed⟩ ⟨targetRoot, a2aMsgId⟩ d with
          ⟨d', e' | attachments⟩
        · rw [hforward] at hattached
          obtain rfl := Except.error.inj hattached
          rfl
        · rw [hforward] at hattached
          cases hattached
      refine ⟨fun h => ?_, fun h => absurd h.distinct hdup⟩
      obtain ⟨rows', hrows⟩ := h.returns
      cases hdelegate.symm.trans hrows

end delegation

/-- A session with one file in its outbox, and one that is sent nothing yet. -/
def sampleDisk : Disk :=
  Disk.ofEntries (fun n => n.length ≤ 255) 40
    [([utf8 (ofString "s")], .dir), ([utf8 (ofString "s"), IoKind.outbox.name], .dir),
      ([utf8 (ofString "s"), IoKind.outbox.name, utf8 (ofString "m1")], .dir),
      ([utf8 (ofString "s"), IoKind.outbox.name, utf8 (ofString "m1"), utf8 (ofString "a.txt")], .file [104, 105]),
      ([utf8 (ofString "t")], .dir)] (by decide)

def sampleEnv : Env := ⟨fun i => i, fun _ => [], id⟩

theorem sample_working : Working sampleDisk [utf8 (ofString "s")] [utf8 (ofString "t")] (ofString "m1")
    (ofString "a2a-1") [utf8 (ofString "s")] [utf8 (ofString "t")] where
  source := Disk.realpath_dir (by decide)
  outbox := .inr (by decide)
  sent := .inr (by decide)
  sourceSafe := by decide
  sourceNoDots := by unfold NoDots; decide
  target :=
    { root := Disk.realpath_dir (by decide)
      dir := by decide
      inbox := .inl (by decide)
      message := .inl (by decide)
      inboxFits := by decide
      messageFits := by decide
      noDots := by unfold NoDots; decide }
  fresh := by decide
  targetSafe := by decide

/-- The properties of an admissible text. -/
def admitted (raw : Text) : List (Text × Value) := ((parseOutboundContent (fun _ => "") raw).toOption).getD []

theorem admitted_eq {raw : Text} (h : (parseOutboundContent (fun _ => "") raw).isOk = true) :
    parseOutboundContent (fun _ => "") raw = .ok (admitted raw) := by
  unfold admitted
  cases hraw : parseOutboundContent (fun _ => "") raw with
  | ok parsed => rfl
  | error reason =>
    rw [hraw] at h
    cases h

def sampleContent (names : String) : Text := ofString ("\x7b\"text\":\"done\",\"files\":[" ++ names ++ "]\x7d")

/-- A file and a name that is missing. -/
theorem delegation_iff_sample : Delegated sampleEnv sampleDisk [utf8 (ofString "s")] [utf8 (ofString "t")]
    [utf8 (ofString "s")] [utf8 (ofString "t")] ⟨ofString "m1", sampleContent "\"a.txt\",\"b.txt\""⟩ (ofString "a2a-1")
    (admitted (sampleContent "\"a.txt\",\"b.txt\"")) [] := by
  have hnone : ((admitted (sampleContent "\"a.txt\",\"b.txt\"")).lookup (ofString "attachments")).isNone = true := by
    decide +kernel
  refine (delegation_iff (admitted_eq (by decide +kernel)) sample_working []).mpr ⟨by decide +kernel, fun l hl => ?_⟩
  rw [hl] at hnone
  cases hnone

/-- **A file that is named twice kills the delegation.** -/
theorem repeated_file_throws : ¬∀ (env : Env) (d : Disk) (sourceRoot targetRoot rs rt : List Name)
    (msg : InboundMessage) (a2aMsgId : Text) (parsed : List (Text × Value)) (syntaxMessage : Text → String)
    (rows : List InboundMessage),
    parseOutboundContent syntaxMessage msg.content = .ok parsed →
      Working d sourceRoot targetRoot msg.id a2aMsgId rs rt →
        Delegated env d sourceRoot targetRoot rs rt msg a2aMsgId parsed rows := by
  intro h
  have hthrows : (delegate sampleEnv [utf8 (ofString "s")] [utf8 (ofString "t")]
      ⟨ofString "m1", sampleContent "\"a.txt\",\"a.txt\""⟩ (ofString "a2a-1") sampleDisk []).2.isOk = false := by
    decide +kernel
  obtain ⟨rows, hrows⟩ := (h sampleEnv sampleDisk _ _ _ _ ⟨ofString "m1", sampleContent "\"a.txt\",\"a.txt\""⟩ _ _ _ []
    (admitted_eq (by decide +kernel)) sample_working).returns
  rw [hrows] at hthrows
  cases hthrows

end AgentDesk.SessionFiles
