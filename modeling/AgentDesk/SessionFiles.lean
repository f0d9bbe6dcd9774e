/-
# The files of a session's messages

The attachment functions of `session-manager.ts` and of `agent-route.ts`, on a file tree. A session has a
directory on the host, with an `outbox` for what its container sends and an `inbox` for what it is sent, and in
each a directory per message. The container can write in all of it, and put links where it likes.

`resolveSessionIoRoot` is the check that all of them begin with: the `inbox` or `outbox` of the session must be a
directory and no link. `readOutboxFiles`, `clearOutbox`, `extractAttachmentFiles` and `forwardAttachedFiles` go on
from the real path that it gives.

A session is taken by its directory. Names are texts for the program and bytes for the file system, which are the
UTF-8 of the text; the names that pass `isSafeAttachmentName` are one component of a path. A loop that throws
leaves the files it has made, so a call gives the tree that it leaves and what it returns or throws. The clock, the
decoding of base64 and `toLowerCase` are taken as they are. The rows of the database hold nothing but their content.

Key theorems: `prefix_of_inside`.
-/
import AgentDesk.FileTree
import AgentDesk.JsonCoercion

namespace AgentDesk.SessionFiles

open JsonText FileTree

/-- A component of a path, in bytes. -/
abbrev Name := List ℕ

abbrev Disk := FileTree.Disk Name (List ℕ)

/-! ### Paths -/

def isSafeAttachmentName (name : Text) : Bool :=
  name ≠ [] && name ≠ ofString "." && name ≠ ofString ".." &&
    !name.any fun c => c = unit '/' || c = unit '\\' || c = 0

/-- `path.join`, with a name that is one component. -/
def join (dir : List Name) (name : Text) : List Name := dir ++ [utf8 name]

/-- `path.relative`, of absolute paths. -/
def relative : List Name → List Name → List (PathPart Name)
  | a :: parent, b :: child =>
    if a = b then relative parent child else (a :: parent).map (fun _ => .up) ++ (b :: child).map .name
  | parent, child => parent.map (fun _ => .up) ++ child.map .name

/-- `relative.startsWith('..')`. -/
def startsWithDots : List (PathPart Name) → Bool
  | .up :: _ => true
  | .name n :: _ => n.take 2 = utf8 (ofString "..")
  | _ => false

def isPathInside (parent child : List Name) : Bool :=
  relative parent child = [] || !startsWithDots (relative parent child)

theorem prefix_of_relative : ∀ {parent child : List Name}, startsWithDots (relative parent child) = false →
    parent <+: child
  | [], _, _ => List.nil_prefix
  | a :: parent, [], h => by simp [relative, startsWithDots] at h
  | a :: parent, b :: child, h => by
    rw [relative] at h
    by_cases hab : a = b
    · rw [if_pos hab] at h
      exact hab ▸ List.cons_prefix_cons.mpr ⟨rfl, prefix_of_relative h⟩
    · rw [if_neg hab] at h
      simp [startsWithDots] at h

def isDirectory : Node Name (List ℕ) → Bool
  | .dir => true
  | _ => false

def isFile : Node Name (List ℕ) → Bool
  | .file _ => true
  | _ => false

/-! ### The root of a session's files -/

inductive IoKind where
  | inbox | outbox
  deriving DecidableEq

def IoKind.name : IoKind → Name
  | .inbox => utf8 (ofString "inbox")
  | .outbox => utf8 (ofString "outbox")

/-- The `kind` directory of a session. -/
def kindPath (root : List Name) (kind : IoKind) : List Name := root ++ [kind.name]

/-- The directory is made where the caller asks for it and nothing is there. -/
def ensureKind (d : Disk) (root : List Name) (kind : IoKind) (ensure : Bool) : Disk × Except Errno Unit :=
  if ensure && !d.exists' (kindPath root kind) then d.mkdirs (kindPath root kind).reverse else (d, .ok ())

/-- The checks on the directory, and its real path. -/
def checkedKind (d : Disk) (root : List Name) (kind : IoKind) : Option (List Name) := do
  let stat ← (d.lstat (kindPath root kind)).toOption
  guard (isDirectory stat)
  let realRoot ← (d.realpath root).toOption
  let realKind ← (d.realpath (kindPath root kind)).toOption
  guard (isPathInside realRoot realKind)
  return realKind

/-- The real path of the `kind` directory of a session; `none` refuses the operation. -/
def resolveSessionIoRoot (d : Disk) (root : List Name) (kind : IoKind) (ensure : Bool) : Disk × Option (List Name) :=
  match ensureKind d root kind ensure with
  | (d, .error _) => (d, none)
  | (d, .ok ()) => (d, checkedKind d root kind)

/-! ### What the container sends -/

structure OutboundFile where
  filename : Text
  data : List ℕ

/-- The directory of a message in the outbox, and its real path. -/
def checkedOutboxDir (d : Disk) (root : List Name) (messageId : Text) : Option (List Name × List Name) := do
  guard (isSafeAttachmentName messageId)
  let realOutboxBase ← (resolveSessionIoRoot d root .outbox false).2
  let outboxDir := join realOutboxBase messageId
  guard (d.exists' outboxDir)
  let stat ← (d.lstat outboxDir).toOption
  guard (isDirectory stat)
  let realOutboxDir ← (d.realpath outboxDir).toOption
  guard (isPathInside realOutboxBase realOutboxDir)
  return (outboxDir, realOutboxDir)

def readOutboxFile (d : Disk) (outboxDir realOutboxDir : List Name) (filename : Text) : Option OutboundFile := do
  guard (isSafeAttachmentName filename)
  let filePath := join outboxDir filename
  let stat ← (d.lstat filePath).toOption
  guard (isFile stat)
  let realFilePath ← (d.realpath filePath).toOption
  guard (isPathInside realOutboxDir realFilePath)
  let data ← (d.readFile realFilePath).toOption
  return ⟨filename, data⟩

def readOutboxFiles (d : Disk) (root : List Name) (messageId : Text) (filenames : List Text) :
    Option (List OutboundFile) := do
  let (outboxDir, realOutboxDir) ← checkedOutboxDir d root messageId
  let files := filenames.filterMap (readOutboxFile d outboxDir realOutboxDir)
  guard (files.length > 0)
  return files

def clearOutbox (d : Disk) (root : List Name) (messageId : Text) : Disk :=
  match checkedOutboxDir d root messageId with
  | some (_, realOutboxDir) => d.remove realOutboxDir
  | none => d

/-! ### Names for what has none -/

/-- What the program is given from outside. -/
structure Env where
  /-- `Date.now()`, by the order of the calls. -/
  now : ℕ → ℕ
  /-- `Buffer.from(data, 'base64')`. -/
  decode : Text → List ℕ
  toLowerCase : Text → Text

def MIME_TO_EXT : List (String × String) :=
  [("image/jpeg", "jpg"), ("image/png", "png"), ("image/webp", "webp"), ("image/gif", "gif"), ("image/heic", "heic"),
    ("audio/ogg", "ogg"), ("audio/mpeg", "mp3"), ("audio/wav", "wav"), ("audio/mp4", "m4a"), ("video/mp4", "mp4"),
    ("video/webm", "webm"), ("video/quicktime", "mov"), ("application/pdf", "pdf"), ("text/plain", "txt"),
    ("application/json", "json"), ("application/zip", "zip")]

def TYPE_TO_EXT : List (String × String) :=
  [("image", "jpg"), ("photo", "jpg"), ("sticker", "webp"), ("voice", "ogg"), ("audio", "mp3"), ("video", "mp4"),
    ("animation", "mp4")]

/-- `table[key] ?? ''`, as a string. An object has two properties in lower case that it inherits. -/
def entryOf (table : List (String × String)) (key : Text) : Text :=
  match table.find? fun entry => ofString entry.1 = key with
  | some (_, ext) => ofString ext
  | none =>
    if key = ofString "constructor" then ofString "function Object() \x7b [native code] \x7d"
    else if key = ofString "__proto__" then ofString "[object Object]"
    else []

def extForMime (env : Env) : Option Value → Text
  | some (.str mime) =>
    if mime = [] then []
    else entryOf MIME_TO_EXT (env.toLowerCase (trimText (mime.takeWhile fun c => c ≠ unit ';')))
  | _ => []

def extForType (env : Env) : Option Value → Text
  | some (.str type) => entryOf TYPE_TO_EXT (env.toLowerCase type)
  | _ => []

/-- The name of an attachment that brings none. -/
def derivedName (env : Env) (ts : ℕ) (att : List (Text × Value)) : Text :=
  let mimeExt := extForMime env (att.lookup (ofString "mimeType"))
  let ext := if mimeExt = [] then extForType env (att.lookup (ofString "type")) else mimeExt
  let base := ofString "attachment-" ++ decimalText ts
  if ext = [] then base else base ++ unit '.' :: ext

def explicitName : Option Value → Option Text
  | some (.str explicit) => if explicit = [] then none else some explicit
  | _ => none

def deriveAttachmentName (env : Env) (ts : ℕ) (att : List (Text × Value)) : Text :=
  (explicitName (att.lookup (ofString "name"))).getD (derivedName env ts att)

/-! ### What the session is sent -/

inductive Thrown where
  | typeError
  | system (e : Errno)
  deriving DecidableEq

/-- The directory of a message in the inbox, made where it is missing; `none` passes the attachment over.
`lstatSync` finds what `existsSync` found. -/
def openInboxDir (d : Disk) (root : List Name) (messageId : Text) : Disk × Option (List Name) :=
  match resolveSessionIoRoot d root .inbox true with
  | (d, none) => (d, none)
  | (d, some realInboxBase) =>
    let inboxDir := join realInboxBase messageId
    if d.exists' inboxDir && !(d.lstat inboxDir).toOption.any isDirectory then (d, none)
    else match d.mkdirs inboxDir.reverse with
      | (d, .error _) => (d, none)
      | (d, .ok ()) => (d, do
        let realInboxDir ← (d.realpath inboxDir).toOption
        guard (isPathInside realInboxBase realInboxDir)
        return inboxDir)

def attachmentFilename (env : Env) (i : ℕ) (att : List (Text × Value)) : Text :=
  let rawName := deriveAttachmentName env (env.now (2 * i)) att
  if isSafeAttachmentName rawName then rawName else ofString "attachment-" ++ decimalText (env.now (2 * i + 1))

/-- `att.name = …; att.localPath = …; delete att.data`. -/
def movedAttachment (messageId filename : Text) (att : List (Text × Value)) : Value :=
  let named := insertField att (ofString "name") (.str filename)
  let localPath := ofString "inbox/" ++ messageId ++ unit '/' :: filename
  .obj ((insertField named (ofString "localPath") (.str localPath)).filter fun f => f.1 ≠ ofString "data")

/-- The turn of the loop for an attachment with data. `none` leaves the attachment as it is. -/
def saveAttachment (env : Env) (root : List Name) (messageId : Text) (i : ℕ) (d : Disk) (att : List (Text × Value))
    (data : Text) : Disk × Except Thrown (Option Value) :=
  match openInboxDir d root messageId with
  | (d, none) => (d, .ok none)
  | (d, some inboxDir) =>
    let filename := attachmentFilename env i att
    match d.create inboxDir (utf8 filename) (.file (env.decode data)) with
    | .ok d' => (d', .ok (some (movedAttachment messageId filename att)))
    | .error e => (d, if e = .eexist then .ok none else .error (.system e))

def extractAttachment (env : Env) (root : List Name) (messageId : Text) (i : ℕ) (d : Disk) :
    Value → Disk × Except Thrown (Option Value)
  | .null => (d, .error .typeError)
  | .obj att => match att.lookup (ofString "data") with
    | some (.str data) => saveAttachment env root messageId i d att data
    | _ => (d, .ok none)
  | _ => (d, .ok none)

/-- The loop, with whether it changed an attachment. -/
def extractLoop (env : Env) (root : List Name) (messageId : Text) :
    ℕ → Disk → List Value → Disk × Except Thrown (List Value × Bool)
  | _, d, [] => (d, .ok ([], false))
  | i, d, att :: rest => match extractAttachment env root messageId i d att with
    | (d, .error e) => (d, .error e)
    | (d, .ok saved) => match extractLoop env root messageId (i + 1) d rest with
      | (d, .error e) => (d, .error e)
      | (d, .ok (moved, changed)) => (d, .ok (saved.getD att :: moved, saved.isSome || changed))

def extractAttachmentFiles (env : Env) (root : List Name) (messageId contentStr : Text) (d : Disk) :
    Disk × Except Thrown Text :=
  match parse contentStr with
  | some .null => (d, .error .typeError)
  | some (.obj parsed) => match parsed.lookup (ofString "attachments") with
    | some (.arr attachments) =>
      if !isSafeAttachmentName messageId then (d, .ok contentStr)
      else match extractLoop env root messageId 0 d attachments with
        | (d, .error e) => (d, .error e)
        | (d, .ok (moved, changed)) =>
          (d, .ok (if changed then stringify (.obj (insertField parsed (ofString "attachments") (.arr moved)))
            else contentStr))
    | _ => (d, .ok contentStr)
  | _ => (d, .ok contentStr)

/-- A row of `messages_in`. -/
structure InboundMessage where
  id : Text
  content : Text

def writeSessionMessage (env : Env) (root : List Name) (message : InboundMessage) (d : Disk)
    (rows : List InboundMessage) : Disk × Except Thrown (List InboundMessage) :=
  match extractAttachmentFiles env root message.id message.content d with
  | (d, .error e) => (d, .error e)
  | (d, .ok content) => (d, .ok (rows ++ [{ message with content }]))

/-! ### What one session sends another -/

structure ForwardedAttachment where
  name : Text
  filename : Text
  localPath : Text
  deriving DecidableEq

def ForwardedAttachment.value (a : ForwardedAttachment) : Value :=
  .obj [(ofString "name", .str a.name), (ofString "filename", .str a.filename),
    (ofString "type", .str (ofString "file")), (ofString "localPath", .str a.localPath)]

structure FileSource where
  root : List Name
  messageId : Text
  filenames : List Text

structure FileTarget where
  root : List Name
  messageId : Text

/-- The file is there, is a file and no link, and is in the outbox. -/
def acceptsSource (d : Disk) (realSourceOutbox src : List Name) : Bool :=
  d.exists' src && (d.lstat src).toOption.any isFile &&
    (d.realpath src).toOption.any fun real => !startsWithDots (relative realSourceOutbox real)

/-- The turn of the loop for a name. `none` skips it. -/
def forwardFile (realSourceOutbox sourceDir targetInboxDir : List Name) (targetId : Text) (d : Disk) (filename : Text) :
    Disk × Except Thrown (Option ForwardedAttachment) :=
  if isSafeAttachmentName filename && acceptsSource d realSourceOutbox (join sourceDir filename) then
    match d.copyFile (join sourceDir filename) targetInboxDir (utf8 filename) with
    | .error e => (d, .error (.system e))
    | .ok d' => (d', .ok (some ⟨filename, filename, ofString "inbox/" ++ targetId ++ unit '/' :: filename⟩))
  else (d, .ok none)

def forwardLoop (realSourceOutbox sourceDir targetInboxDir : List Name) (targetId : Text) :
    Disk → List Text → Disk × Except Thrown (List ForwardedAttachment)
  | d, [] => (d, .ok [])
  | d, filename :: rest => match forwardFile realSourceOutbox sourceDir targetInboxDir targetId d filename with
    | (d, .error e) => (d, .error e)
    | (d, .ok a) => match forwardLoop realSourceOutbox sourceDir targetInboxDir targetId d rest with
      | (d, .error e) => (d, .error e)
      | (d, .ok attachments) => (d, .ok (a.toList ++ attachments))

/-- The directory of the message in the target's inbox; `none` forwards nothing. -/
def openTargetDir (d : Disk) (target : FileTarget) : Disk × Except Thrown (Option (List Name)) :=
  match resolveSessionIoRoot d target.root .inbox true with
  | (d, none) => (d, .ok none)
  | (d, some realTargetInbox) => match d.mkdirs (join realTargetInbox target.messageId).reverse with
    | (d, .error e) => (d, .error (.system e))
    | (d, .ok ()) => (d, .ok (some (join realTargetInbox target.messageId)))

def forwardAttachedFiles (source : FileSource) (target : FileTarget) (d : Disk) :
    Disk × Except Thrown (List ForwardedAttachment) :=
  if source.filenames.length = 0 then (d, .ok [])
  else match (resolveSessionIoRoot d source.root .outbox false).2 with
    | none => (d, .ok [])
    | some realSourceOutbox =>
      if !isSafeAttachmentName source.messageId || !isSafeAttachmentName target.messageId then (d, .ok [])
      else if !d.exists' (join realSourceOutbox source.messageId) then (d, .ok [])
      else match openTargetDir d target with
        | (d, .error e) => (d, .error e)
        | (d, .ok none) => (d, .ok [])
        | (d, .ok (some targetInboxDir)) =>
          forwardLoop realSourceOutbox (join realSourceOutbox source.messageId) targetInboxDir target.messageId d
            source.filenames

/-- The strings of `parsed.files`, where it is an array. -/
def fileNames (parsed : List (Text × Value)) : List Text :=
  match parsed.lookup (ofString "files") with
  | some (.arr files) => files.filterMap Json.text?
  | _ => []

/-- The list that the forwarded attachments are added to. -/
def presentAttachments (parsed : List (Text × Value)) : List Value :=
  match parsed.lookup (ofString "attachments") with
  | some (.arr present) => present
  | _ => []

def forwardFileAttachments (sourceRoot targetRoot : List Name) (msg : InboundMessage) (a2aMsgId : Text) (d : Disk) :
    Disk × Except Thrown Text :=
  match parse msg.content with
  | some .null => (d, .error .typeError)
  | some (.obj parsed) =>
    let filenames := fileNames parsed
    if filenames.length = 0 then (d, .ok msg.content)
    else match forwardAttachedFiles ⟨sourceRoot, msg.id, filenames⟩ ⟨targetRoot, a2aMsgId⟩ d with
      | (d, .error e) => (d, .error e)
      | (d, .ok attachments) =>
        (d, .ok (stringify (.obj (insertField parsed (ofString "attachments")
          (.arr (presentAttachments parsed ++ attachments.map ForwardedAttachment.value))))))
  | _ => (d, .ok msg.content)

end AgentDesk.SessionFiles
