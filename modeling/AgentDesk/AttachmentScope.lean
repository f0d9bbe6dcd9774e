/-
# Attachment files stay in their session

A container can replace any part of its session's directory by a link. The functions that read, remove and make
files there check each component before they go on, so that whatever tree the host finds, they stay in the real
directory of the session.

* `checkedKind_some`, `resolveSessionIoRoot_some`: the root that is resolved is the real one.
* `readOutboxFiles_scope`, `clearOutbox_scope`: what is read and removed is in the directory of the message.
* `extractAttachmentFiles_scope`: what is made is in the directory of the message, and replaces nothing. This also
  holds of a call that throws.
* `forwardAttachedFiles_scope`, `forwardAttachedFiles_recode`: the files are copied from the source's outbox, and no
  other bytes matter. The directory of the source's message may be a link; each file is checked instead.
* `attachments_stay_inside`: **all four together**.

A step of a loop is `StaysInside`, which is reflexive and transitive; the loops follow.
-/
import AgentDesk.SessionFiles

namespace AgentDesk.SessionFiles

open JsonText FileTree

variable {d d' : Disk} {root : List Name}

/-! ### The root -/

theorem toOption_iff {ε α : Type} {e : Except ε α} {a : α} : e.toOption = some a ↔ e = .ok a := by
  cases e <;> simp [Except.toOption]

theorem isDirectory_iff {x : Node Name (List ℕ)} : isDirectory x = true ↔ x = .dir := by
  cases x <;> simp [isDirectory]

theorem guard_iff {p : Prop} [Decidable p] {u : Unit} : (guard p : Option Unit) = some u ↔ p := by
  by_cases hp : p <;> simp [guard, hp]

theorem checkedKind_some {kind : IoKind} {rk : List Name} (h : checkedKind d root kind = some rk) :
    ∃ r, d.realpath root = .ok r ∧ rk = r ++ [kind.name] ∧ d.node rk = some .dir ∧
      d.realpath (root ++ [kind.name]) = .ok rk := by
  unfold checkedKind at h
  simp only [Option.bind_eq_bind, Option.bind_eq_some_iff, toOption_iff, guard_iff, isDirectory_iff, Option.pure_def,
    Option.some.injEq] at h
  obtain ⟨_, hstat, -, rfl, r, hr, q, hq, -, -, rfl⟩ := h
  obtain ⟨hnode, hreal⟩ := Disk.realpath_of_lstat hstat rfl hr
  cases hq.symm.trans hreal
  exact ⟨r, hr, rfl, hnode, hreal⟩

/-- **The root that is resolved** is the `kind` directory in the real directory of the session. -/
theorem resolveSessionIoRoot_some {kind : IoKind} {ensure : Bool} {rk : List Name}
    (h : resolveSessionIoRoot d root kind ensure = (d', some rk)) :
    ∃ r, d'.realpath root = .ok r ∧ rk = r ++ [kind.name] ∧ d'.node rk = some .dir ∧ d.Opened d' rk := by
  unfold resolveSessionIoRoot at h
  split at h
  · cases h
  · rename_i d₁ hmade
    obtain ⟨rfl, hroot⟩ := Prod.mk.inj h
    obtain ⟨r, hr, hrk, hnode, hreal⟩ := checkedKind_some hroot
    refine ⟨r, hr, hrk, hnode, ?_⟩
    unfold ensureKind at hmade
    split at hmade
    · obtain ⟨q, hreach, -, hopened⟩ := Disk.mkdirs_ok hmade
      rw [List.reverse_reverse] at hreach
      cases hreach.symm.trans hreal
      exact hopened
    · cases hmade
      exact .refl _ _

theorem resolveSessionIoRoot_new (d : Disk) (root : List Name) (kind : IoKind) (ensure : Bool) :
    d.Le (resolveSessionIoRoot d root kind ensure).1 ∧
      ∀ t, (resolveSessionIoRoot d root kind ensure).1.node t ≠ d.node t →
        (resolveSessionIoRoot d root kind ensure).1.node t = some .dir ∧
          ∀ r, d.realpath root = .ok r → t = r ++ [kind.name] := by
  have hfst : (resolveSessionIoRoot d root kind ensure).1 = (ensureKind d root kind ensure).1 := by
    unfold resolveSessionIoRoot
    split <;> simp only [*]
  rw [hfst]
  unfold ensureKind
  split
  · obtain ⟨hle, hnew⟩ := Disk.mkdirs_new (kindPath root kind).reverse d
    refine ⟨hle, fun t ht => ⟨hnew t ht, fun r hr => ?_⟩⟩
    exact Disk.mkdirs_child hr ht
  · exact ⟨.refl d, fun _ h => absurd rfl h⟩

theorem resolveSessionIoRoot_false (d : Disk) (root : List Name) (kind : IoKind) :
    resolveSessionIoRoot d root kind false = (d, checkedKind d root kind) := rfl

/-! ### What the container sends -/

theorem checkedOutboxDir_some {messageId : Text} {dirs : List Name × List Name}
    (h : checkedOutboxDir d root messageId = some dirs) : ∃ r, d.realpath root = .ok r ∧
      dirs = (r ++ [IoKind.outbox.name, utf8 messageId], r ++ [IoKind.outbox.name, utf8 messageId]) ∧
        d.node dirs.2 = some .dir := by
  unfold checkedOutboxDir at h
  simp only [resolveSessionIoRoot_false, Option.bind_eq_bind, Option.bind_eq_some_iff, toOption_iff, guard_iff,
    isDirectory_iff, Option.pure_def, Option.some.injEq] at h
  obtain ⟨-, -, rk, hrk, -, -, _, hstat, -, rfl, q, hq, -, -, rfl⟩ := h
  obtain ⟨r, hr, rfl, hbase, -⟩ := checkedKind_some hrk
  obtain ⟨hnode, hreal⟩ := Disk.realpath_of_lstat hstat rfl (Disk.realpath_dir hbase)
  cases hq.symm.trans hreal
  rw [List.append_assoc] at hnode
  exact ⟨r, hr, by simp [join], by simpa using hnode⟩

theorem isFile_iff {x : Node Name (List ℕ)} : isFile x = true ↔ ∃ bytes, x = .file bytes := by
  cases x <;> simp [isFile]

theorem readOutboxFile_some {dir : List Name} (hdir : d.node dir = some .dir) {filename : Text} {file : OutboundFile}
    (h : readOutboxFile d dir dir filename = some file) :
    file.filename = filename ∧ d.node (dir ++ [utf8 filename]) = some (.file file.data) := by
  unfold readOutboxFile at h
  simp only [Option.bind_eq_bind, Option.bind_eq_some_iff, toOption_iff, guard_iff, isFile_iff, Option.pure_def,
    Option.some.injEq] at h
  obtain ⟨-, -, _, hstat, -, ⟨bytes, rfl⟩, q, hq, -, -, data, hread, rfl⟩ := h
  obtain ⟨hnode, hreal⟩ := Disk.realpath_of_lstat hstat rfl (Disk.realpath_dir hdir)
  cases hq.symm.trans hreal
  obtain ⟨q, hq', hfile⟩ := Disk.readFile_iff.mp hread
  cases Disk.real_of_resolve hq' hnode (.inr rfl)
  exact ⟨rfl, hfile⟩

/-- **`readOutboxFiles`** returns bytes of regular files in the message's directory of the real outbox. -/
theorem readOutboxFiles_scope {messageId : Text} {filenames : List Text} {files : List OutboundFile}
    (h : readOutboxFiles d root messageId filenames = some files) : ∃ r, d.realpath root = .ok r ∧
      ∀ file ∈ files, file.filename ∈ filenames ∧
        d.node (r ++ [IoKind.outbox.name, utf8 messageId, utf8 file.filename]) = some (.file file.data) := by
  unfold readOutboxFiles at h
  simp only [Option.bind_eq_bind, Option.bind_eq_some_iff, guard_iff, Option.pure_def, Option.some.injEq] at h
  obtain ⟨dirs, hdirs, -, -, rfl⟩ := h
  obtain ⟨r, hr, rfl, hnode⟩ := checkedOutboxDir_some hdirs
  refine ⟨r, hr, fun file hfile => ?_⟩
  obtain ⟨filename, hmem, hread⟩ := List.mem_filterMap.mp hfile
  obtain ⟨rfl, hbytes⟩ := readOutboxFile_some hnode hread
  exact ⟨hmem, by simpa using hbytes⟩

/-- **`clearOutbox`** takes away only what is at or below the message's directory of the real outbox. -/
theorem clearOutbox_scope {messageId : Text} {t : List Name} (h : (clearOutbox d root messageId).node t ≠ d.node t) :
    ∃ r, d.realpath root = .ok r ∧ r ++ [IoKind.outbox.name, utf8 messageId] <+: t ∧
      (clearOutbox d root messageId).node t = none := by
  unfold clearOutbox at h ⊢
  split at h
  · rename_i hdirs
    obtain ⟨r, hr, hpair, hnode⟩ := checkedOutboxDir_some hdirs
    cases hpair
    obtain ⟨q, hq, hprefix, hgone⟩ := Disk.remove_node h
    cases Disk.real_of_resolve hq hnode (.inl rfl)
    exact ⟨r, hr, hprefix, hgone⟩
  · exact absurd rfl h

/-! ### What the session is sent -/

/-- What a call may have made on behalf of a message: nothing that was there is changed; files are in the message's
directory of the real inbox, one name below it; and in a session that was there the directories are these two. -/
structure StaysInside (d d' : Disk) (root : List Name) (messageId : Text) : Prop where
  kept : d.Le d'
  made : ∀ t, d'.node t ≠ d.node t → d'.node t = some .dir ∨ ∃ r n bytes, d'.realpath root = .ok r ∧
    t = r ++ [IoKind.inbox.name, utf8 messageId, n] ∧ d'.node t = some (.file bytes)
  dirs : ∀ t r, d'.node t ≠ d.node t → d'.node t = some .dir → d.realpath root = .ok r →
    t = r ++ [IoKind.inbox.name] ∨ t = r ++ [IoKind.inbox.name, utf8 messageId]

namespace StaysInside

variable {d₁ d₂ : Disk} {messageId : Text}

theorem refl (d : Disk) (root : List Name) (messageId : Text) : StaysInside d d root messageId :=
  ⟨.refl d, fun _ h => absurd rfl h, fun _ _ h => absurd rfl h⟩

theorem trans (h : StaysInside d d₁ root messageId) (h' : StaysInside d₁ d₂ root messageId) :
    StaysInside d d₂ root messageId where
  kept := h.kept.trans h'.kept
  made t ht := by
    by_cases hnew : d₂.node t = d₁.node t
    · rw [hnew] at ht ⊢
      refine (h.made t ht).imp_right fun ⟨r, n, bytes, hr, hrest⟩ => ⟨r, n, bytes, h'.kept.resolve hr, hrest⟩
    · exact h'.made t hnew
  dirs t r ht hdir hr := by
    by_cases hnew : d₂.node t = d₁.node t
    · rw [hnew] at ht hdir
      exact h.dirs t r ht hdir hr
    · exact h'.dirs t r hnew hdir (h.kept.resolve hr)

/-- A directory on the way to the message's. -/
theorem of_dirs (hkept : d.Le d₁) (hdir : ∀ t, d₁.node t ≠ d.node t → d₁.node t = some .dir ∧
    ∀ r, d.realpath root = .ok r → t = r ++ [IoKind.inbox.name] ∨ t = r ++ [IoKind.inbox.name, utf8 messageId]) :
    StaysInside d d₁ root messageId where
  kept := hkept
  made t ht := .inl (hdir t ht).1
  dirs t r ht _ hr := (hdir t ht).2 r hr

theorem of_root (d : Disk) (root : List Name) (messageId : Text) :
    StaysInside d (resolveSessionIoRoot d root .inbox true).1 root messageId := by
  obtain ⟨hkept, hnew⟩ := resolveSessionIoRoot_new d root .inbox true
  exact of_dirs hkept fun t ht => ⟨(hnew t ht).1, fun r hr => .inl ((hnew t ht).2 r hr)⟩

variable (messageId) in
/-- The message's directory, made in the real inbox. -/
theorem of_mkdirs {r : List Name} (hr : d.realpath root = .ok r)
    (hbase : d.node (r ++ [IoKind.inbox.name]) = some .dir) :
    StaysInside d (d.mkdirs (join (r ++ [IoKind.inbox.name]) messageId).reverse).1 root messageId := by
  obtain ⟨hkept, hnew⟩ := Disk.mkdirs_new (join (r ++ [IoKind.inbox.name]) messageId).reverse d
  refine of_dirs hkept fun t ht => ⟨hnew t ht, fun r' hr' => .inr ?_⟩
  cases hr.symm.trans hr'
  simpa using Disk.mkdirs_child (Disk.realpath_dir hbase) ht

/-- A file that is made in the message's directory. -/
theorem of_add {r : List Name} (hr : d.realpath root = .ok r) {n : Name} {bytes : List ℕ}
    (hdir : d.node (r ++ [IoKind.inbox.name, utf8 messageId]) = some .dir)
    (hfree : d.node (r ++ [IoKind.inbox.name, utf8 messageId] ++ [n]) = none) (hfits : d.fits n = true) :
    StaysInside d (d.add _ n (.file bytes) hdir hfree hfits) root messageId := by
  have hkept := Disk.le_add (x := .file bytes) hdir hfree hfits
  have hnew : ∀ t, (d.add _ n (.file bytes) hdir hfree hfits).node t ≠ d.node t →
      t = r ++ [IoKind.inbox.name, utf8 messageId, n] ∧
        (d.add _ n (.file bytes) hdir hfree hfits).node t = some (.file bytes) := by
    intro t ht
    rw [Disk.add_node] at ht ⊢
    split at ht
    · rename_i heq
      rw [if_pos heq]
      exact ⟨by simpa using heq, rfl⟩
    · exact absurd rfl ht
  refine ⟨hkept, fun t ht => .inr ⟨r, n, bytes, hkept.resolve hr, hnew t ht⟩, fun t _ ht hisdir _ => ?_⟩
  rw [(hnew t ht).2] at hisdir
  cases hisdir

end StaysInside

/-- The directory that the attachments of a message go to. -/
theorem openInboxDir_scope (d : Disk) (root : List Name) (messageId : Text) :
    StaysInside d (openInboxDir d root messageId).1 root messageId ∧
      ∀ dir, (openInboxDir d root messageId).2 = some dir → ∃ r,
        (openInboxDir d root messageId).1.realpath root = .ok r ∧
          dir = r ++ [IoKind.inbox.name, utf8 messageId] ∧
            (openInboxDir d root messageId).1.node dir = some .dir := by
  have hroot := StaysInside.of_root d root messageId
  unfold openInboxDir
  split
  · rename_i d₁ hresolve
    rw [hresolve] at hroot
    exact ⟨hroot, fun _ h => (nomatch h)⟩
  · rename_i d₁ rk hresolve
    rw [hresolve] at hroot
    obtain ⟨r, hr, rfl, hbase, -⟩ := resolveSessionIoRoot_some hresolve
    have hmkdirs := StaysInside.of_mkdirs messageId hr hbase
    dsimp only
    split
    · exact ⟨hroot, fun _ h => (nomatch h)⟩
    · rename_i hcheck
      split
      · rename_i d₂ e hmade
        rw [hmade] at hmkdirs
        exact ⟨hroot.trans hmkdirs, fun _ h => (nomatch h)⟩
      · rename_i d₂ hmade
        rw [hmade] at hmkdirs
        refine ⟨hroot.trans hmkdirs, fun dir hdir => ⟨r, hmkdirs.kept.resolve hr, ?_⟩⟩
        simp only [Option.bind_eq_bind, Option.bind_eq_some_iff, Option.pure_def, Option.some.injEq] at hdir
        obtain ⟨-, -, -, -, rfl⟩ := hdir
        have hreal := Disk.realpath_dir hbase
        refine ⟨by simp [join], (Disk.mkdirs_child_ok hreal hmade).resolve_right fun ⟨hexists, x, hx, hlink⟩ => ?_⟩
        rw [join, hexists, Bool.true_and, Bool.not_eq_true, Bool.not_eq_false', Option.any_eq_true] at hcheck
        obtain ⟨y, hy, hdir⟩ := hcheck
        cases isDirectory_iff.mp hdir
        obtain ⟨hnode, -⟩ := Disk.realpath_of_lstat (toOption_iff.mp hy) rfl hreal
        cases hx.symm.trans hnode
        cases hlink

theorem saveAttachment_scope (env : Env) (root : List Name) (messageId : Text) (i : ℕ) (d : Disk)
    (att : List (Text × Value)) (data : Text) :
    StaysInside d (saveAttachment env root messageId i d att data).1 root messageId := by
  obtain ⟨hopen, hdir⟩ := openInboxDir_scope d root messageId
  unfold saveAttachment
  split
  · rename_i d₁ hnone
    rwa [hnone] at hopen
  · rename_i d₁ dir hsome
    rw [hsome] at hopen hdir
    obtain ⟨r, hr, rfl, hnode⟩ := hdir dir rfl
    dsimp only
    split
    · rename_i d₂ hcreate
      obtain ⟨r', hdir', hfree, hfits, hr', rfl⟩ := Disk.create_ok hcreate
      cases hr'.symm.trans (Disk.realpath_dir hnode)
      exact hopen.trans (.of_add hr hdir' hfree hfits)
    · exact hopen

theorem extractAttachment_scope (env : Env) (root : List Name) (messageId : Text) (i : ℕ) (d : Disk) (att : Value) :
    StaysInside d (extractAttachment env root messageId i d att).1 root messageId := by
  unfold extractAttachment
  split
  · exact .refl ..
  · split
    · exact saveAttachment_scope ..
    · exact .refl ..
  · exact .refl ..

theorem extractLoop_scope (env : Env) (root : List Name) (messageId : Text) : ∀ (l : List Value) (i : ℕ) (d : Disk),
    StaysInside d (extractLoop env root messageId i d l).1 root messageId
  | [], _, d => .refl d root messageId
  | att :: rest, i, d => by
    have hfirst := extractAttachment_scope env root messageId i d att
    unfold extractLoop
    split
    · rename_i d₁ e h₁
      rwa [h₁] at hfirst
    · rename_i d₁ saved h₁
      rw [h₁] at hfirst
      have hrest := extractLoop_scope env root messageId rest (i + 1) d₁
      split
      · rename_i d₂ e h₂
        rw [h₂] at hrest
        exact hfirst.trans hrest
      · rename_i d₂ moved changed h₂
        rw [h₂] at hrest
        exact hfirst.trans hrest

/-- **`extractAttachmentFiles`** makes files in the message's directory of the real inbox, whatever it returns. -/
theorem extractAttachmentFiles_scope (env : Env) (root : List Name) (messageId contentStr : Text) (d : Disk) :
    StaysInside d (extractAttachmentFiles env root messageId contentStr d).1 root messageId := by
  unfold extractAttachmentFiles
  split
  · exact .refl ..
  · rename_i parsed _
    split
    · rename_i attachments _
      split
      · exact .refl ..
      · have hloop := extractLoop_scope env root messageId attachments 0 d
        split
        · rename_i d₁ e h₁
          rwa [h₁] at hloop
        · rename_i d₁ moved changed h₁
          rwa [h₁] at hloop
    · exact .refl ..
  · exact .refl ..

/-! ### What one session sends another -/

/-- The bytes of a new file are those of a file below the outbox `base` in the tree before. -/
def CopiedFrom (d d' : Disk) (base : List Name) : Prop :=
  ∀ t bytes, d'.node t ≠ d.node t → d'.node t = some (.file bytes) →
    ∃ names, names ≠ [] ∧ d.node (base ++ names) = some (.file bytes)

theorem acceptsSource_inside {base src : List Name} (h : acceptsSource d base src = true) {q : List Name}
    (hq : d.realpath src = .ok q) : base <+: q := by
  unfold acceptsSource at h
  rw [Bool.and_eq_true, hq] at h
  exact prefix_of_relative (by simpa [Except.toOption] using h.2)

/-- The turn of the loop for a name keeps within the target's directory, and reads in the source's outbox. -/
theorem forwardFile_scope {d₀ : Disk} {targetRoot r base : List Name} (sourceDir : List Name) {targetId : Text}
    (hbase : d₀.node base = some .dir) (hr : d.realpath targetRoot = .ok r)
    (hdir : d.node (r ++ [IoKind.inbox.name, utf8 targetId]) = some .dir)
    (hcopied : CopiedFrom d₀ d base) (filename : Text) :
    StaysInside d (forwardFile base sourceDir (r ++ [IoKind.inbox.name, utf8 targetId]) targetId d filename).1
        targetRoot targetId ∧
      CopiedFrom d₀ (forwardFile base sourceDir (r ++ [IoKind.inbox.name, utf8 targetId]) targetId d filename).1
        base := by
  unfold forwardFile
  split
  · rename_i haccept
    split
    · exact ⟨.refl .., hcopied⟩
    · rename_i d₁ hcopy
      obtain ⟨q, bytes, r', hdir', hfree, hfits, hq, hfile, hr', rfl⟩ := Disk.copyFile_ok hcopy
      cases hr'.symm.trans (Disk.realpath_dir hdir)
      refine ⟨.of_add hr hdir' hfree hfits, fun t bytes' ht hbytes => ?_⟩
      rw [Disk.add_node] at ht hbytes
      split at hbytes
      · cases hbytes
        obtain ⟨names, rfl⟩ := acceptsSource_inside (Bool.and_eq_true _ _ ▸ haccept).2 hq
        by_cases hold : d.node (base ++ names) = d₀.node (base ++ names)
        · refine ⟨names, ?_, hold ▸ hfile⟩
          rintro rfl
          rw [List.append_nil] at hold hfile
          rw [hold, hbase] at hfile
          cases hfile
        · exact hcopied _ _ hold hfile
      · rename_i hne
        rw [if_neg hne] at ht
        exact hcopied t bytes' ht hbytes
  · exact ⟨.refl .., hcopied⟩

theorem forwardLoop_scope {d₀ : Disk} {targetRoot r base : List Name} (sourceDir : List Name) {targetId : Text}
    (hbase : d₀.node base = some .dir) : ∀ (filenames : List Text) {d : Disk}, d.realpath targetRoot = .ok r →
      d.node (r ++ [IoKind.inbox.name, utf8 targetId]) = some .dir → CopiedFrom d₀ d base →
      StaysInside d (forwardLoop base sourceDir (r ++ [IoKind.inbox.name, utf8 targetId]) targetId d filenames).1
          targetRoot targetId ∧
        CopiedFrom d₀ (forwardLoop base sourceDir (r ++ [IoKind.inbox.name, utf8 targetId]) targetId d filenames).1
          base
  | [], d, _, _, hcopied => ⟨.refl .., hcopied⟩
  | filename :: rest, d, hr, hdir, hcopied => by
    obtain ⟨hfirst, hcopied₁⟩ := forwardFile_scope sourceDir hbase hr hdir hcopied filename
    unfold forwardLoop
    split
    · rename_i d₁ e h₁
      rw [h₁] at hfirst hcopied₁
      exact ⟨hfirst, hcopied₁⟩
    · rename_i d₁ a h₁
      rw [h₁] at hfirst hcopied₁
      obtain ⟨hrest, hcopied₂⟩ := forwardLoop_scope sourceDir hbase rest (hfirst.kept.resolve hr)
        (hfirst.kept.node _ _ hdir) hcopied₁
      split
      · rename_i d₂ e h₂
        rw [h₂] at hrest hcopied₂
        exact ⟨hfirst.trans hrest, hcopied₂⟩
      · rename_i d₂ attachments h₂
        rw [h₂] at hrest hcopied₂
        exact ⟨hfirst.trans hrest, hcopied₂⟩

/-- Nothing has the name of the message in the inbox of the session. -/
def Fresh (d : Disk) (target : FileTarget) : Prop :=
  ∀ r, d.realpath target.root = .ok r → d.node (r ++ [IoKind.inbox.name, utf8 target.messageId]) = none

theorem Fresh.resolve {target : FileTarget} (h : Fresh d target) {rk : List Name}
    (hrk : resolveSessionIoRoot d target.root .inbox true = (d', some rk)) :
    d'.node (rk ++ [utf8 target.messageId]) = none := by
  obtain ⟨r, hr, rfl, -, hopened⟩ := resolveSessionIoRoot_some hrk
  rcases hopened.last with rfl | hnone
  · simpa using h r hr
  · by_contra hsome
    have hold := node_below d hnone [utf8 target.messageId]
    have hprefix := (hopened.new _ (by rw [hold]; exact hsome)).1.length_le
    simp only [List.length_append, List.length_singleton] at hprefix
    omega

/-- All that is new is a directory. -/
def OnlyDirs (d d' : Disk) : Prop := ∀ t, d'.node t ≠ d.node t → d'.node t = some .dir

theorem OnlyDirs.trans {d₁ d₂ : Disk} (h : OnlyDirs d d₁) (h' : OnlyDirs d₁ d₂) : OnlyDirs d d₂ := by
  intro t ht
  by_cases hold : d₂.node t = d₁.node t
  · rw [hold] at ht ⊢
    exact h t ht
  · exact h' t hold

theorem OnlyDirs.copiedFrom (h : OnlyDirs d d') (base : List Name) : CopiedFrom d d' base := by
  intro t bytes ht hbytes
  cases hbytes.symm.trans (h t ht)

theorem openTargetDir_scope {target : FileTarget} (hfresh : Fresh d target) :
    StaysInside d (openTargetDir d target).1 target.root target.messageId ∧ OnlyDirs d (openTargetDir d target).1 ∧
      ∀ dir, (openTargetDir d target).2 = .ok (some dir) → ∃ r,
        (openTargetDir d target).1.realpath target.root = .ok r ∧
          dir = r ++ [IoKind.inbox.name, utf8 target.messageId] ∧ (openTargetDir d target).1.node dir = some .dir := by
  have hroot := StaysInside.of_root d target.root target.messageId
  have hrootdirs : OnlyDirs d (resolveSessionIoRoot d target.root .inbox true).1 := fun t ht =>
    ((resolveSessionIoRoot_new d target.root .inbox true).2 t ht).1
  unfold openTargetDir
  split
  · rename_i d₁ hresolve
    rw [hresolve] at hroot hrootdirs
    exact ⟨hroot, hrootdirs, fun _ h => (nomatch h)⟩
  · rename_i d₁ rk hresolve
    rw [hresolve] at hroot hrootdirs
    have hnone := hfresh.resolve hresolve
    obtain ⟨r, hr, rfl, hinbox, -⟩ := resolveSessionIoRoot_some hresolve
    have hmkdirs := StaysInside.of_mkdirs target.messageId hr hinbox
    have hnew : OnlyDirs d₁ (d₁.mkdirs (join (r ++ [IoKind.inbox.name]) target.messageId).reverse).1 :=
      (Disk.mkdirs_new _ d₁).2
    split
    · rename_i d₂ e hmade
      rw [hmade] at hmkdirs hnew
      exact ⟨hroot.trans hmkdirs, hrootdirs.trans hnew, fun _ h => (nomatch h)⟩
    · rename_i d₂ hmade
      rw [hmade] at hmkdirs hnew
      refine ⟨hroot.trans hmkdirs, hrootdirs.trans hnew, fun dir hdir => ⟨r, hmkdirs.kept.resolve hr, ?_⟩⟩
      cases hdir
      have hchild := Disk.mkdirs_child_ok (Disk.realpath_dir hinbox) hmade
      refine ⟨by simp [join], hchild.resolve_right fun ⟨_, x, hx, _⟩ => ?_⟩
      rw [hnone] at hx
      cases hx

/-- Every new file has the bytes of a file below the real outbox of the source. -/
def CopiesOutbox (d d' : Disk) (root : List Name) : Prop :=
  ∀ t bytes, d'.node t ≠ d.node t → d'.node t = some (.file bytes) → ∃ r names, d.realpath root = .ok r ∧
    names ≠ [] ∧ d.node (r ++ IoKind.outbox.name :: names) = some (.file bytes)

theorem CopiesOutbox.of_copied {r : List Name} (hr : d.realpath root = .ok r)
    (h : CopiedFrom d d' (r ++ [IoKind.outbox.name])) : CopiesOutbox d d' root := by
  intro t bytes ht hbytes
  obtain ⟨names, hne, hfile⟩ := h t bytes ht hbytes
  exact ⟨r, names, hr, hne, by simpa using hfile⟩

/-- **`forwardAttachedFiles`** makes files in the target's inbox and copies them from the source's outbox. -/
theorem forwardAttachedFiles_scope (source : FileSource) {target : FileTarget} (hfresh : Fresh d target) :
    StaysInside d (forwardAttachedFiles source target d).1 target.root target.messageId ∧
      CopiesOutbox d (forwardAttachedFiles source target d).1 source.root := by
  have hnothing : StaysInside d d target.root target.messageId ∧ CopiesOutbox d d source.root :=
    ⟨.refl .., fun _ _ h => absurd rfl h⟩
  unfold forwardAttachedFiles
  split
  · exact hnothing
  · split
    · exact hnothing
    · rename_i base hbase
      rw [resolveSessionIoRoot_false] at hbase
      obtain ⟨rs, hrs, rfl, hnode, -⟩ := checkedKind_some hbase
      obtain ⟨hopen, hdirs, hdir⟩ := openTargetDir_scope hfresh
      split
      · exact hnothing
      · split
        · exact hnothing
        · split
          · rename_i d₁ e h₁
            rw [h₁] at hopen hdirs
            exact ⟨hopen, .of_copied hrs (hdirs.copiedFrom _)⟩
          · rename_i d₁ h₁
            rw [h₁] at hopen hdirs
            exact ⟨hopen, .of_copied hrs (hdirs.copiedFrom _)⟩
          · rename_i d₁ dir h₁
            rw [h₁] at hopen hdirs hdir
            obtain ⟨r, hr, rfl, htarget⟩ := hdir dir rfl
            obtain ⟨hloop, hcopied⟩ := forwardLoop_scope (join (rs ++ [IoKind.outbox.name]) source.messageId)
              hnode source.filenames hr htarget (hdirs.copiedFrom _)
            exact ⟨hopen.trans hloop, .of_copied hrs hcopied⟩

/-! ### What is read -/

section recode

variable (f : List Name → List ℕ → List ℕ) (d : Disk)

theorem isDirectory_recode (g : List ℕ → List ℕ) (x : Node Name (List ℕ)) :
    isDirectory (x.recode g) = isDirectory x := by
  cases x <;> rfl

theorem isFile_recode (g : List ℕ → List ℕ) (x : Node Name (List ℕ)) : isFile (x.recode g) = isFile x := by
  cases x <;> rfl

theorem checkedKind_recode (root : List Name) (kind : IoKind) :
    checkedKind (d.recode f) root kind = checkedKind d root kind := by
  obtain ⟨g, hg⟩ := Disk.recode_lstat f d (kindPath root kind)
  unfold checkedKind Disk.realpath
  rw [hg, Disk.recode_resolve, Disk.recode_resolve]
  cases d.lstat (kindPath root kind) with
  | error e => rfl
  | ok x =>
    simp only [Except.map, Except.toOption, Option.bind_eq_bind, Option.bind_some, isDirectory_recode]

theorem resolveSessionIoRoot_recode (root : List Name) (kind : IoKind) (ensure : Bool) :
    resolveSessionIoRoot (d.recode f) root kind ensure =
      ((resolveSessionIoRoot d root kind ensure).1.recode f, (resolveSessionIoRoot d root kind ensure).2) := by
  have hensure : ensureKind (d.recode f) root kind ensure =
      ((ensureKind d root kind ensure).1.recode f, (ensureKind d root kind ensure).2) := by
    unfold ensureKind
    rw [Disk.recode_exists, Disk.recode_mkdirs]
    split <;> rfl
  unfold resolveSessionIoRoot
  rw [hensure]
  rcases ensureKind d root kind ensure with ⟨d₁, _ | _⟩
  · rfl
  · simp only [checkedKind_recode]

theorem openTargetDir_recode (target : FileTarget) : openTargetDir (d.recode f) target =
    ((openTargetDir d target).1.recode f, (openTargetDir d target).2) := by
  unfold openTargetDir
  rw [resolveSessionIoRoot_recode]
  rcases resolveSessionIoRoot d target.root .inbox true with ⟨d₁, _ | rk⟩
  · rfl
  · simp only [Disk.recode_mkdirs]
    rcases d₁.mkdirs (join rk target.messageId).reverse with ⟨d₂, _ | _⟩ <;> rfl

theorem acceptsSource_recode (base src : List Name) :
    acceptsSource (d.recode f) base src = acceptsSource d base src := by
  obtain ⟨g, hg⟩ := Disk.recode_lstat f d src
  unfold acceptsSource Disk.realpath
  rw [hg, Disk.recode_exists, Disk.recode_resolve]
  cases d.lstat src with
  | error e => rfl
  | ok x =>
    simp only [Except.map, Except.toOption, Option.any_some, isFile_recode]

/-- Bytes that are not in the outbox `base` do not matter to the turn of the loop. -/
theorem forwardFile_recode {base sourceDir targetInboxDir : List Name} {targetId : Text}
    (hinside : ∀ p bytes, base <+: p → f p bytes = bytes) (hnew : ∀ p bytes, d.node p = none → f p bytes = bytes)
    (filename : Text) : forwardFile base sourceDir targetInboxDir targetId (d.recode f) filename =
      ((forwardFile base sourceDir targetInboxDir targetId d filename).1.recode f,
        (forwardFile base sourceDir targetInboxDir targetId d filename).2) := by
  have hcopy : acceptsSource d base (join sourceDir filename) = true →
      (d.recode f).copyFile (join sourceDir filename) targetInboxDir (utf8 filename) =
        (d.copyFile (join sourceDir filename) targetInboxDir (utf8 filename)).map (Disk.recode f) := by
    intro haccept
    unfold Disk.copyFile
    cases hq : d.realpath (join sourceDir filename) with
    | error e =>
      have hexists := haccept
      unfold acceptsSource at hexists
      rw [Bool.and_eq_true, hq] at hexists
      cases hexists.2
    | ok q =>
      rw [Disk.recode_readFile f d hq]
      cases d.readFile (join sourceDir filename) with
      | error e => rfl
      | ok bytes =>
        show (d.recode f).create targetInboxDir (utf8 filename) (.file (f q bytes)) = _
        rw [hinside q bytes (acceptsSource_inside haccept hq)]
        exact Disk.recode_create f d fun r b hfree _ => hnew _ b hfree
  unfold forwardFile
  rw [acceptsSource_recode]
  split
  · rename_i haccept
    rw [hcopy (Bool.and_eq_true _ _ ▸ haccept).2]
    cases d.copyFile (join sourceDir filename) targetInboxDir (utf8 filename) <;> rfl
  · rfl

theorem forwardLoop_recode {base sourceDir targetInboxDir : List Name} {targetId : Text}
    (hinside : ∀ p bytes, base <+: p → f p bytes = bytes) : ∀ (filenames : List Text) (d : Disk),
      (∀ p bytes, d.node p = none → f p bytes = bytes) →
      forwardLoop base sourceDir targetInboxDir targetId (d.recode f) filenames =
        ((forwardLoop base sourceDir targetInboxDir targetId d filenames).1.recode f,
          (forwardLoop base sourceDir targetInboxDir targetId d filenames).2)
  | [], _, _ => rfl
  | filename :: rest, d, hnew => by
    have hkept : d.Le (forwardFile base sourceDir targetInboxDir targetId d filename).1 := by
      unfold forwardFile
      split
      · split
        · exact .refl d
        · rename_i d₁ hcopy
          obtain ⟨q, bytes, r, hdir, hfree, hfits, -, -, -, rfl⟩ := Disk.copyFile_ok hcopy
          exact Disk.le_add hdir hfree hfits
      · exact .refl d
    unfold forwardLoop
    rw [forwardFile_recode f d hinside hnew]
    rcases h₁ : forwardFile base sourceDir targetInboxDir targetId d filename with ⟨d₁, _ | a⟩
    · rfl
    · rw [h₁] at hkept
      simp only [forwardLoop_recode hinside rest d₁ fun p bytes hp => hnew p bytes (hkept.node_none hp)]
      rcases forwardLoop base sourceDir targetInboxDir targetId d₁ rest with ⟨d₂, _ | _⟩ <;> rfl

/-- Other bytes in the files that are not in the real outbox of a session. -/
structure Elsewhere (root : List Name) : Prop where
  there : ∀ p bytes, d.node p = none → f p bytes = bytes
  outside : ∀ r p bytes, d.realpath root = .ok r → r ++ [IoKind.outbox.name] <+: p → f p bytes = bytes

/-- **No other bytes are read.** What `forwardAttachedFiles` does and returns is the same with any other bytes in the
files that are not in the source's outbox. -/
theorem forwardAttachedFiles_recode {source : FileSource} {target : FileTarget} (h : Elsewhere f d source.root)
    (hfresh : Fresh d target) : forwardAttachedFiles source target (d.recode f) =
      ((forwardAttachedFiles source target d).1.recode f, (forwardAttachedFiles source target d).2) := by
  unfold forwardAttachedFiles
  rw [resolveSessionIoRoot_recode]
  split
  · rfl
  · cases hbase : (resolveSessionIoRoot d source.root .outbox false).2 with
    | none => rfl
    | some base =>
      have hchecked := hbase
      rw [resolveSessionIoRoot_false] at hchecked
      obtain ⟨r, hr, rfl, -, -⟩ := checkedKind_some hchecked
      dsimp only
      split
      · rfl
      · rw [Disk.recode_exists]
        split
        · rfl
        · rw [openTargetDir_recode]
          have hkept := (openTargetDir_scope hfresh).1.kept
          rcases hopen : openTargetDir d target with ⟨d₁, _ | _ | dir⟩
          · rfl
          · rfl
          · rw [hopen] at hkept
            exact forwardLoop_recode f (fun p bytes hp => h.outside r p bytes hr hp) source.filenames d₁
              fun p bytes hp => h.there p bytes (hkept.node_none hp)

end recode

/-! ### The four functions -/

/-- Attachment files stay in their session. -/
structure AttachmentScope (env : Env) (d : Disk) : Prop where
  read : ∀ root messageId filenames files, readOutboxFiles d root messageId filenames = some files →
    ∃ r, d.realpath root = .ok r ∧ ∀ file ∈ files, file.filename ∈ filenames ∧
      d.node (r ++ [IoKind.outbox.name, utf8 messageId, utf8 file.filename]) = some (.file file.data)
  clear : ∀ root messageId t, (clearOutbox d root messageId).node t ≠ d.node t → ∃ r, d.realpath root = .ok r ∧
    r ++ [IoKind.outbox.name, utf8 messageId] <+: t ∧ (clearOutbox d root messageId).node t = none
  extract : ∀ root messageId contentStr,
    StaysInside d (extractAttachmentFiles env root messageId contentStr d).1 root messageId
  forward : ∀ source target, Fresh d target →
    StaysInside d (forwardAttachedFiles source target d).1 target.root target.messageId ∧
      CopiesOutbox d (forwardAttachedFiles source target d).1 source.root
  forwardReads : ∀ source target f, Fresh d target → Elsewhere f d source.root →
    forwardAttachedFiles source target (d.recode f) =
      ((forwardAttachedFiles source target d).1.recode f, (forwardAttachedFiles source target d).2)

/-- **Attachment I/O stays inside the session**, wherever there are links in the tree. -/
theorem attachments_stay_inside (env : Env) (d : Disk) : AttachmentScope env d where
  read _ _ _ _ := readOutboxFiles_scope
  clear _ _ _ := clearOutbox_scope
  extract root messageId contentStr := extractAttachmentFiles_scope env root messageId contentStr d
  forward source _ := forwardAttachedFiles_scope source
  forwardReads _ _ f hfresh h := forwardAttachedFiles_recode f d h hfresh

end AgentDesk.SessionFiles
