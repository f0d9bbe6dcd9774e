/-
# The payload of the routing model as markup

The payload is one element, with the metadata, the workers and the messages in it, and everything in it that is not
the program's own is escaped. Only a text that was cut may fail to be markup: escaped units are several characters,
and what is left of one is no reference, whatever follows.

* `take_escapeXml`: where a text is cut, between units or in one.
* `wellFormed_render`: views with whole units only are written as markup.
* `not_wellFormed_render`: a view with a part of a unit is not.
-/
import AgentDesk.PromptMarkup
import AgentDesk.RoutingContext

namespace Markup

open JsonText

/-! ### Texts and their nodes -/

/-- The text is read as these tokens, between tags. -/
def Tokenized (t : Text) (l : List Token) : Prop := run .text t = some (.text, l)

theorem Tokenized.append {t u : Text} {l m : List Token} (ht : Tokenized t l) (hu : Tokenized u m) :
    Tokenized (t ++ u) (l ++ m) := by
  rw [Tokenized, run_append_of ht, hu]
  rfl

theorem tokenized_iff {t : Text} {l : List Token} : Tokenized t l ↔ tokens t = some l := by
  rw [Tokenized, tokens]
  constructor
  · intro h
    rw [h]
  · intro h
    split at h
    · rename_i m hrun
      rw [hrun, Option.some.inj h]
    · cases h

theorem Tokenized.run_none {t u : Text} {l : List Token} (ht : Tokenized t l) (hu : run .text u = none) :
    run .text (t ++ u) = none := by
  rw [run_append_of ht, hu]
  rfl

/-- The text is read as these nodes. -/
def ReadsAs (t : Text) (ns : List Node) : Prop := Tokenized t (flattenAll ns)

theorem readsAs_nil : ReadsAs [] [] := rfl

theorem ReadsAs.append {t u : Text} {ns ms : List Node} (ht : ReadsAs t ns) (hu : ReadsAs u ms) :
    ReadsAs (t ++ u) (ns ++ ms) := by
  rw [ReadsAs, flattenAll_append]
  exact Tokenized.append ht hu

theorem readsAs_flatMap {α : Type} {f : α → Text} {g : α → List Node} {l : List α} (h : ∀ a ∈ l, ReadsAs (f a) (g a)) :
    ReadsAs (l.flatMap f) (l.flatMap g) := by
  induction l with
  | nil => exact readsAs_nil
  | cons a l ih => exact (h a List.mem_cons_self).append (ih fun b hb => h b (List.mem_cons_of_mem a hb))

theorem Spells.readsAs {t v : Text} (h : Spells t v) : ReadsAs t (v.map .char) := by
  rw [ReadsAs, Tokenized, h.between, flattenAll_chars]

theorem spells_plain : ∀ {t : Text}, (∀ c ∈ t, c ≠ unit '&' ∧ c ≠ unit '<' ∧ c ≠ unit '"') → Spells t t
  | [], _ => spells_nil
  | c :: t, h => by
    obtain ⟨hamp, hlt, hquot⟩ := h c List.mem_cons_self
    exact (spells_unit hamp hlt hquot).append (spells_plain fun d hd => h d (List.mem_cons_of_mem c hd))

theorem readsAs_plain {t : Text} (h : t.all (fun c => c ≠ unit '&' ∧ c ≠ unit '<' ∧ c ≠ unit '"') = true) :
    ReadsAs t (t.map .char) :=
  (spells_plain fun c hc => of_decide_eq_true (List.all_eq_true.mp h c hc)).readsAs

theorem readsAs_element (name : Name) {l : List Spelling} (hl : ∀ a ∈ l, Spells a.2.1 a.2.2) {t : Text} {ns : List Node}
    (h : ReadsAs t ns) : ReadsAs (unit '<' :: (name.text ++ (l.flatMap Spelling.text ++ [unit '>'])) ++
      (t ++ unit '<' :: unit '/' :: (name.text ++ [unit '>']))) [.element name.text (valuesOf l) ns] := by
  have hstop : run .text (unit '<' :: unit '/' :: (name.text ++ [unit '>'])) = some (.text, [.stop name.text]) :=
    run_piece (p := .stop name) nofun
  rw [ReadsAs, Tokenized, run_append_of (run_startTag name hl), run_append_of h, hstop]
  simp [flattenAll, Node.flatten]

theorem readsAs_empty (name : Name) {l : List Spelling} (hl : ∀ a ∈ l, Spells a.2.1 a.2.2) :
    ReadsAs (unit '<' :: (name.text ++ (l.flatMap Spelling.text ++ [0x20, unit '/', unit '>'])))
      [.empty name.text (valuesOf l)] := by
  rw [ReadsAs, Tokenized, run_emptyTag name hl]
  rfl

theorem read_of_readsAs {t : Text} {ns : List Node} (h : ReadsAs t ns) : read t = some ns := by
  rw [read, tokens, h]
  exact build_eq_iff.mpr rfl

/-! ### Texts that are no markup -/

theorem run_cut {r : Text} (hr : ∀ c ∈ r, Markup.nameUnit c = true) (rest : Text) :
    run .text (unit '&' :: (r ++ unit '<' :: rest)) = none := by
  have hname := run_done (f := Place.reference) (P := fun d => Markup.nameUnit d = true)
    (fun done d hd => by rw [step, if_neg (nameUnit_ne hd (by decide)), if_pos hd]) r [] hr
  have hopen : run .text [unit '&'] = some (.reference [], []) := by rfl
  have hstop : step (.reference ([] ++ r)) (unit '<') = none := step_lt (by simp)
  rw [← List.singleton_append, run_append_of hopen, run_append_of hname, run, hstop]
  rfl

theorem run_append_none {t : Text} (h : run .text t = none) (u : Text) : run .text (t ++ u) = none := by
  rw [run_append, h]
  rfl

theorem read_of_run_none {t : Text} (h : run .text t = none) : read t = none := by
  rw [read, tokens, h]
  rfl

end Markup

namespace AgentDesk.Routing

open JsonText Markup
open Formatter (nameOf)

/-! ### Escaped texts -/

/-- A unit as it is escaped. -/
def escapeUnit5 (c : UInt16) : Text := if c = unit '\'' then ofString "&apos;" else Markup.escapeUnit c

theorem escapeXml_eq (t : Text) : escapeXml t = t.flatMap escapeUnit5 := by
  rw [escapeXml, AgentDesk.Formatter.escapeXml_eq, Formatter.replaceUnit, Markup.escape, List.flatMap_assoc]
  refine List.flatMap_congr fun c _ => ?_
  rw [escapeUnit5]
  rcases Markup.escapeUnit_cases c with ⟨r, hr, htext⟩ | ⟨htext, -⟩
  · have hall : ∀ p ∈ references, (unit '&' :: (p.2 ++ [unit ';'])).flatMap
        (fun d => if d = unit '\'' then ofString "&apos;" else [d]) = unit '&' :: (p.2 ++ [unit ';']) ∧
          p.1 ≠ unit '\'' := by decide
    rw [htext, (hall _ hr).1, if_neg (hall _ hr).2]
  · rw [htext, List.flatMap_singleton]

theorem escapeUnit5_cases (c : UInt16) :
    (∃ r, escapeUnit5 c = unit '&' :: (r ++ [unit ';']) ∧ decode r = some c ∧ ∀ d ∈ r, Markup.nameUnit d = true) ∨
      (escapeUnit5 c = [c] ∧ c ≠ unit '&' ∧ c ≠ unit '<' ∧ c ≠ unit '"') := by
  rw [escapeUnit5]
  by_cases hapos : c = unit '\''
  · rw [if_pos hapos, hapos]
    have hunits : (ofString "apos").all Markup.nameUnit = true := by decide
    exact .inl ⟨ofString "apos", by decide, by decide, List.all_eq_true.mp hunits⟩
  · rw [if_neg hapos]
    rcases Markup.escapeUnit_cases c with ⟨r, hr, htext⟩ | hplain
    · exact .inl ⟨r, htext, references_decode _ hr⟩
    · exact .inr hplain

theorem spells_escapeXml (t : Text) : Spells (escapeXml t) t := by
  rw [escapeXml_eq]
  refine spells_flatMap (fun c => ?_) t
  rcases escapeUnit5_cases c with ⟨r, htext, hdecode, hunits⟩ | ⟨htext, hamp, hlt, hquot⟩
  · rw [htext]
    exact spells_reference hdecode hunits
  · rw [htext]
    exact spells_unit hamp hlt hquot

theorem escapeXml_append (t u : Text) : escapeXml (t ++ u) = escapeXml t ++ escapeXml u := by
  rw [escapeXml_eq, escapeXml_eq, escapeXml_eq, List.flatMap_append]

/-- A part of a reference: its beginning, without its end. -/
def Partial (t : Text) : Prop := ∃ r, t = unit '&' :: r ∧ ∀ c ∈ r, Markup.nameUnit c = true

/-- **Where an escaped text is cut**, between two units or in one. -/
theorem take_escapeXml (t : Text) (k : ℕ) : (∃ p, p <+: t ∧ (escapeXml t).take k = escapeXml p) ∨
    ∃ p part, (escapeXml t).take k = escapeXml p ++ part ∧ Partial part := by
  induction t generalizing k with
  | nil => exact .inl ⟨[], List.prefix_refl _, by rw [escapeXml_eq, List.flatMap_nil, List.take_nil]⟩
  | cons c t ih =>
    have hcons : escapeXml (c :: t) = escapeUnit5 c ++ escapeXml t := by
      rw [escapeXml_eq, escapeXml_eq, List.flatMap_cons]
    have hone : escapeXml [c] = escapeUnit5 c := by rw [escapeXml_eq, List.flatMap_singleton]
    have hnone : escapeXml [] = [] := by rw [escapeXml_eq, List.flatMap_nil]
    rw [hcons]
    by_cases hlong : (escapeUnit5 c).length ≤ k
    · have htake : (escapeUnit5 c ++ escapeXml t).take k =
          escapeUnit5 c ++ (escapeXml t).take (k - (escapeUnit5 c).length) := by
        rw [List.take_append, List.take_of_length_le hlong]
      rw [htake]
      rcases ih (k - (escapeUnit5 c).length) with ⟨p, hp, heq⟩ | ⟨p, part, heq, hpart⟩
      · refine .inl ⟨c :: p, List.cons_prefix_cons.mpr ⟨rfl, hp⟩, ?_⟩
        rw [heq, ← hone, ← escapeXml_append, List.singleton_append]
      · refine .inr ⟨c :: p, part, ?_, hpart⟩
        rw [heq, ← List.append_assoc, ← hone, ← escapeXml_append, List.singleton_append]
    · have htake : (escapeUnit5 c ++ escapeXml t).take k = (escapeUnit5 c).take k :=
        List.take_append_of_le_length (by omega)
      rw [htake]
      cases k with
      | zero => exact .inl ⟨[], List.nil_prefix, by rw [hnone, List.take_zero]⟩
      | succ k =>
        rcases escapeUnit5_cases c with ⟨r, htext, -, hunits⟩ | ⟨htext, -⟩
        · have hshort : k ≤ r.length := by
            rw [htext] at hlong
            simp at hlong
            omega
          refine .inr ⟨[], unit '&' :: r.take k, ?_, r.take k, rfl, fun d hd => hunits d (List.mem_of_mem_take hd)⟩
          rw [htext, hnone, List.take_succ_cons, List.take_append_of_le_length hshort, List.nil_append]
        · rw [htext] at hlong
          simp at hlong

/-! ### Views -/

/-- What is shown of the view's text is whole. -/
def View.Whole (view : View) : Prop := ∃ p, view.visibleText = escapeXml p

/-- The text of the view was cut in a unit. -/
def View.Broken (view : View) : Prop :=
  view.truncated = true ∧ ∃ p part, view.visibleText = escapeXml p ++ part ∧ Partial part

/-- The sender of the view is escaped. -/
def View.SenderShown (view : View) : Prop := ∃ sender, view.sender = escapeXml sender

def routingRequest : Name := nameOf "routing_request" (by decide)

def metadata : Name := nameOf "metadata" (by decide)

def workersName : Name := nameOf "workers" (by decide)

def workerName : Name := nameOf "worker" (by decide)

theorem messages_isName : ofString "messages" ≠ [] ∧ (ofString "messages").all Markup.nameUnit = true := by decide

def messagesName : Name := nameOf "messages" messages_isName

theorem message_isName : ofString "message" ≠ [] ∧ (ofString "message").all Markup.nameUnit = true := by decide

def messageName : Name := nameOf "message" message_isName

def truncatedName : Name := nameOf "truncated" (by decide)

theorem messageLine_eq {view : View} {sender : Text} (h : view.sender = escapeXml sender) :
    messageLine view = ofString "    " ++ (unit '<' :: (messageName.text ++
      ([((nameOf "sender" (by decide), escapeXml sender, sender) : Spelling)].flatMap Spelling.text ++ [unit '>'])) ++
        (view.visibleText ++ (if view.truncated then marker else []) ++
          unit '<' :: unit '/' :: (messageName.text ++ [unit '>']))) := by
  have hopen : ofString "    <message sender=\"" = ofString "    " ++ unit '<' :: (messageName.text ++
      0x20 :: (ofString "sender" ++ [unit '=', unit '"'])) := by decide
  have hend : ofString "\">" = [unit '"', unit '>'] := by decide
  have hclose : ofString "</message>" = unit '<' :: unit '/' :: (messageName.text ++ [unit '>']) := by decide
  rw [messageLine, hopen, hend, hclose, h]
  simp [Spelling.text, writtenAttribute, nameOf]

/-- The nodes of the views' lines, but for their ends. -/
def messageNodes (view : View) (sender text : Text) : List Node :=
  (ofString "    ").map .char ++ [.element messageName.text [(ofString "sender", sender)]
    (text.map .char ++ if view.truncated then [.empty truncatedName.text []] else [])]

theorem readsAs_messageLine {view : View} {sender text : Text} (hsender : view.sender = escapeXml sender)
    (htext : view.visibleText = escapeXml text) : ReadsAs (messageLine view) (messageNodes view sender text) := by
  have hspaces : ReadsAs (ofString "    ") ((ofString "    ").map .char) := readsAs_plain (by decide)
  have hmarker : ReadsAs (if view.truncated then marker else [])
      (if view.truncated then [.empty truncatedName.text []] else []) := by
    cases view.truncated with
    | true => exact readsAs_empty truncatedName (l := []) (fun a ha => absurd ha List.not_mem_nil)
    | false => exact readsAs_nil
  have hbody := ((spells_escapeXml text).readsAs).append hmarker
  have hattributes : ∀ a ∈ [((nameOf "sender" (by decide), escapeXml sender, sender) : Spelling)],
      Spells a.2.1 a.2.2 := by
    intro a ha
    obtain rfl := List.mem_singleton.mp ha
    exact spells_escapeXml sender
  have helement := readsAs_element messageName hattributes hbody
  rw [messageLine_eq hsender, htext]
  exact hspaces.append helement

theorem run_messageLine {view : View} (hsender : view.SenderShown) (h : view.Broken) :
    run .text (messageLine view) = none := by
  obtain ⟨sender, hsender⟩ := hsender
  obtain ⟨htruncated, p, part, htext, r, rfl, hr⟩ := h
  have hspaces : ReadsAs (ofString "    ") ((ofString "    ").map .char) := readsAs_plain (by decide)
  have hattributes : ∀ a ∈ [((nameOf "sender" (by decide), escapeXml sender, sender) : Spelling)],
      Spells a.2.1 a.2.2 := by
    intro a ha
    obtain rfl := List.mem_singleton.mp ha
    exact spells_escapeXml sender
  have hmarker : marker = unit '<' :: ofString "truncated />" := by decide
  have hcut : ∀ rest, run .text ((unit '&' :: r) ++ (marker ++ rest)) = none := by
    intro rest
    rw [hmarker, List.cons_append, List.cons_append]
    exact run_cut hr _
  rw [messageLine_eq hsender, htext, htruncated, if_pos rfl, List.append_assoc, List.append_assoc]
  refine Tokenized.run_none hspaces ?_
  rw [run_append_of (run_startTag messageName hattributes), run_append_of (spells_escapeXml p).between, hcut]
  rfl

/-! ### The payload -/

theorem joinedLines_cons (l : Text) (ls : List Text) : joinedLines (l :: ls) = l ++ ls.flatMap fun line => 0x0a :: line := by
  induction ls generalizing l with
  | nil => simp [joinedLines]
  | cons line ls ih =>
    have hstep : joinedLines (l :: line :: ls) = l ++ 0x0a :: joinedLines (line :: ls) := by
      simp [joinedLines, List.intercalate, List.intersperse]
    rw [hstep, ih, List.flatMap_cons, List.cons_append]

/-- A line after the end of the one before. -/
def lineAfter (line : Text) : Text := 0x0a :: line

variable (timezone : Option Text) (workers : List DestinationEntry)

/-- The workers that are named. -/
def agentWorkers : List DestinationEntry := workers.filter fun worker => worker.type = .agent

/-- The payload up to the messages, and after them. -/
def payloadHead (messages : List MessageInRow) : Text :=
  ofString "<routing_request version=\"1\">" ++ (lineAfter (metadataLine timezone messages) ++
    (lineAfter (ofString "  <workers>") ++ (((agentWorkers workers).flatMap fun worker => lineAfter (workerLine worker)) ++
      (lineAfter (ofString "  </workers>") ++ lineAfter (ofString "  <messages>")))))

def payloadTail : Text := lineAfter (ofString "  </messages>") ++ lineAfter (ofString "</routing_request>")

theorem render_eq (views : List View) : render timezone workers views =
    payloadHead timezone workers (views.map (·.msg)) ++
      ((views.flatMap fun view => lineAfter (messageLine view)) ++ payloadTail) := by
  rw [render]
  simp only [List.cons_append, List.nil_append]
  rw [joinedLines_cons]
  simp [payloadHead, payloadTail, agentWorkers, lineAfter, List.flatMap_map]

/-- The nodes of a worker's line. -/
def workerNodes (worker : DestinationEntry) : List Node :=
  (ofString "\n    ").map .char ++ [.empty workerName.text
    [(ofString "name", worker.name), (ofString "display_name", worker.displayName)]]

theorem readsAs_workerLine (worker : DestinationEntry) : ReadsAs (lineAfter (workerLine worker)) (workerNodes worker) := by
  have hopen : ofString "    <worker name=\"" = ofString "    " ++ unit '<' :: (workerName.text ++
      0x20 :: (ofString "name" ++ [unit '=', unit '"'])) := by decide
  have hnext : ofString "\" display_name=\"" = unit '"' :: 0x20 :: (ofString "display_name" ++ [unit '=', unit '"']) := by
    decide
  have hend : ofString "\" />" = [unit '"', 0x20, unit '/', unit '>'] := by decide
  have hspaces : ofString "\n    " = 0x0a :: ofString "    " := by decide
  have hattributes : ∀ a ∈ [((nameOf "name" (by decide), escapeXml worker.name, worker.name) : Spelling),
      (nameOf "display_name" (by decide), escapeXml worker.displayName, worker.displayName)], Spells a.2.1 a.2.2 := by
    intro a ha
    rcases List.mem_cons.mp ha with rfl | ha
    · exact spells_escapeXml worker.name
    · obtain rfl := List.mem_singleton.mp ha
      exact spells_escapeXml worker.displayName
  have htag := readsAs_empty workerName hattributes
  have hline : lineAfter (workerLine worker) = ofString "\n    " ++ unit '<' :: (workerName.text ++
      ([((nameOf "name" (by decide), escapeXml worker.name, worker.name) : Spelling),
        (nameOf "display_name" (by decide), escapeXml worker.displayName, worker.displayName)].flatMap Spelling.text ++
          [0x20, unit '/', unit '>'])) := by
    rw [lineAfter, workerLine, hopen, hnext, hend, hspaces]
    simp [Spelling.text, writtenAttribute, nameOf]
  rw [hline]
  exact (readsAs_plain (by decide)).append htag

theorem spells_decimalText (n : ℕ) : Spells (decimalText n) (decimalText n) := by
  have h := spells_escape (decimalText n)
  rwa [Formatter.escape_decimalText] at h

/-- The zone that is named. -/
def zone : Text := (timezone.bind nonBlank).getD (ofString "UTC")

theorem timezone_isName : ofString "timezone" ≠ [] ∧ (ofString "timezone").all Markup.nameUnit = true := by decide

/-- The metadata as attributes. -/
def metadataSpellings (messages : List MessageInRow) : List Spelling :=
  [(nameOf "timezone" timezone_isName, escapeXml (zone timezone), zone timezone),
    (nameOf "input_kind" (by decide), ofString "chat", ofString "chat"),
    (nameOf "message_count" (by decide), decimalText messages.length, decimalText messages.length),
    (nameOf "attachment_count" (by decide), decimalText (attachmentCount messages), decimalText (attachmentCount messages))]

theorem metadataSpellings_spell (messages : List MessageInRow) :
    ∀ a ∈ metadataSpellings timezone messages, Spells a.2.1 a.2.2 := by
  have hchat : Spells (ofString "chat") (ofString "chat") := by
    have hunits : (ofString "chat").all (fun c => c ≠ unit '&' ∧ c ≠ unit '<' ∧ c ≠ unit '"') = true := by decide
    exact spells_plain fun c hc => of_decide_eq_true (List.all_eq_true.mp hunits c hc)
  intro a ha
  simp only [metadataSpellings, List.mem_cons, List.not_mem_nil, or_false] at ha
  rcases ha with rfl | rfl | rfl | rfl
  · exact spells_escapeXml (zone timezone)
  · exact hchat
  · exact spells_decimalText messages.length
  · exact spells_decimalText (attachmentCount messages)

def metadataNodes (messages : List MessageInRow) : List Node :=
  (ofString "\n  ").map .char ++ [.empty metadata.text (valuesOf (metadataSpellings timezone messages))]

theorem readsAs_metadataLine (messages : List MessageInRow) :
    ReadsAs (lineAfter (metadataLine timezone messages)) (metadataNodes timezone messages) := by
  have hopen : ofString "  <metadata timezone=\"" = ofString "  " ++ unit '<' :: (metadata.text ++
      0x20 :: (ofString "timezone" ++ [unit '=', unit '"'])) := by decide
  have hcount : ofString "\" input_kind=\"chat\" message_count=\"" = unit '"' :: 0x20 :: (ofString "input_kind" ++
      unit '=' :: unit '"' :: (ofString "chat" ++ unit '"' :: 0x20 :: (ofString "message_count" ++
        [unit '=', unit '"']))) := by decide
  have hattachments : ofString "\" attachment_count=\"" =
      unit '"' :: 0x20 :: (ofString "attachment_count" ++ [unit '=', unit '"']) := by decide
  have hend : ofString "\" />" = [unit '"', 0x20, unit '/', unit '>'] := by decide
  have hspaces : ofString "\n  " = 0x0a :: ofString "  " := by decide
  have htag := readsAs_empty metadata (metadataSpellings_spell timezone messages)
  have hline : lineAfter (metadataLine timezone messages) = ofString "\n  " ++ unit '<' :: (metadata.text ++
      ((metadataSpellings timezone messages).flatMap Spelling.text ++ [0x20, unit '/', unit '>'])) := by
    rw [lineAfter, metadataLine, hopen, hcount, hattachments, hend, hspaces]
    simp [Spelling.text, writtenAttribute, nameOf, metadataSpellings, zone]
  rw [hline]
  exact (readsAs_plain (by decide)).append htag

/-! ### What the payload is read as -/

def requestOpen : List Token := [.start routingRequest.text [(ofString "version", ofString "1")]]

def chars (s : String) : List Token := (ofString s).map .char

theorem flattenAll_ofString (s : String) : flattenAll ((ofString s).map .char) = chars s := flattenAll_chars (ofString s)

/-- The tokens up to the messages. -/
def headTokens (messages : List MessageInRow) : List Token :=
  requestOpen ++ (flattenAll (metadataNodes timezone messages) ++ (chars "\n  " ++ [.start workersName.text []] ++
    (flattenAll ((agentWorkers workers).flatMap workerNodes) ++ (chars "\n  " ++ [.stop workersName.text] ++
      (chars "\n  " ++ [.start messagesName.text []])))))

def tailTokens : List Token :=
  chars "\n  " ++ [.stop messagesName.text] ++ (chars "\n" ++ [.stop routingRequest.text])

theorem tokenized_head (messages : List MessageInRow) :
    Tokenized (payloadHead timezone workers messages) (headTokens timezone workers messages) := by
  have hrequest : Tokenized (ofString "<routing_request version=\"1\">") requestOpen :=
    tokenized_iff.mpr (by decide)
  have hworkersOpen : Tokenized (lineAfter (ofString "  <workers>")) (chars "\n  " ++ [.start workersName.text []]) :=
    tokenized_iff.mpr (by decide)
  have hworkersEnd : Tokenized (lineAfter (ofString "  </workers>")) (chars "\n  " ++ [.stop workersName.text]) :=
    tokenized_iff.mpr (by decide)
  have hmessages : Tokenized (lineAfter (ofString "  <messages>")) (chars "\n  " ++ [.start messagesName.text []]) :=
    tokenized_iff.mpr (by decide)
  have hworkers : ReadsAs ((agentWorkers workers).flatMap fun worker => lineAfter (workerLine worker))
      ((agentWorkers workers).flatMap workerNodes) := readsAs_flatMap fun worker _ => readsAs_workerLine worker
  have hmetadata := readsAs_metadataLine timezone messages
  exact hrequest.append (Tokenized.append hmetadata (hworkersOpen.append
    (Tokenized.append hworkers (hworkersEnd.append hmessages))))

theorem tokenized_tail : Tokenized payloadTail tailTokens := by
  have hmessages : Tokenized (lineAfter (ofString "  </messages>")) (chars "\n  " ++ [.stop messagesName.text]) :=
    tokenized_iff.mpr (by decide)
  have hrequest : Tokenized (lineAfter (ofString "</routing_request>")) (chars "\n" ++ [.stop routingRequest.text]) :=
    tokenized_iff.mpr (by decide)
  exact hmessages.append hrequest

/-- One element, in which everything is markup. -/
def WellFormed (t : Text) : Prop := ∃ name attributes children, Markup.read t = some [.element name attributes children]

/-- **Views with whole texts only are written as markup.** -/
theorem wellFormed_render {views : List View} (hsenders : ∀ view ∈ views, view.SenderShown)
    (htexts : ∀ view ∈ views, view.Whole) : WellFormed (render timezone workers views) := by
  have hnodes : ∃ nodes, ReadsAs (views.flatMap fun view => lineAfter (messageLine view)) nodes := by
    induction views with
    | nil => exact ⟨[], readsAs_nil⟩
    | cons view views ih =>
      obtain ⟨nodes, hnodes⟩ := ih (fun v hv => hsenders v (List.mem_cons_of_mem view hv))
        fun v hv => htexts v (List.mem_cons_of_mem view hv)
      obtain ⟨sender, hsender⟩ := hsenders view List.mem_cons_self
      obtain ⟨text, htext⟩ := htexts view List.mem_cons_self
      have hline : ReadsAs (lineAfter (messageLine view)) (.char 0x0a :: messageNodes view sender text) :=
        (readsAs_plain (t := [0x0a]) (by decide)).append (readsAs_messageLine hsender htext)
      exact ⟨_, hline.append hnodes⟩
  obtain ⟨nodes, hnodes⟩ := hnodes
  have hall : Tokenized (render timezone workers views)
      (headTokens timezone workers (views.map (·.msg)) ++ (flattenAll nodes ++ tailTokens)) := by
    have hhead := tokenized_head timezone workers (views.map fun view => view.msg)
    have hbody := Tokenized.append hnodes tokenized_tail
    rw [render_eq]
    exact hhead.append hbody
  refine ⟨routingRequest.text, [(ofString "version", ofString "1")],
    metadataNodes timezone (views.map (·.msg)) ++ ((ofString "\n  ").map .char ++
      [.element workersName.text [] ((agentWorkers workers).flatMap workerNodes ++ (ofString "\n  ").map .char)] ++
      ((ofString "\n  ").map .char ++ [.element messagesName.text [] (nodes ++ (ofString "\n  ").map .char)] ++
        (ofString "\n").map .char)), read_of_readsAs ?_⟩
  rw [ReadsAs]
  refine Eq.mp (congrArg _ ?_) hall
  simp [headTokens, tailTokens, requestOpen, flattenAll, flattenAll_append, Node.flatten, flattenAll_ofString]

/-- **A view with a part of a unit is not.** -/
theorem not_wellFormed_render {views : List View} (hsenders : ∀ view ∈ views, view.SenderShown)
    (htexts : ∀ view ∈ views, view.Whole ∨ view.Broken) (hbroken : ∃ view ∈ views, view.Broken) :
    ¬WellFormed (render timezone workers views) := by
  have hlines : ∀ rest, run .text ((views.flatMap fun view => lineAfter (messageLine view)) ++ rest) = none := by
    intro rest
    refine run_append_none ?_ rest
    have hnewline : Tokenized [0x0a] [.char 0x0a] := rfl
    induction views with
    | nil =>
      obtain ⟨view, hview, -⟩ := hbroken
      exact absurd hview List.not_mem_nil
    | cons view views ih =>
      have hsender := hsenders view List.mem_cons_self
      rw [List.flatMap_cons]
      rcases htexts view List.mem_cons_self with hwhole | hpart
      · by_cases hrest : ∃ v ∈ views, v.Broken
        · obtain ⟨sender, hsender⟩ := hsender
          obtain ⟨text, htext⟩ := hwhole
          have hline := hnewline.append (readsAs_messageLine hsender htext)
          exact hline.run_none (ih (fun v hv => hsenders v (List.mem_cons_of_mem view hv))
            (fun v hv => htexts v (List.mem_cons_of_mem view hv)) hrest)
        · obtain ⟨v, hv, hbroken⟩ := hbroken
          rcases List.mem_cons.mp hv with rfl | hv
          · exact run_append_none (hnewline.run_none (run_messageLine hsender hbroken)) _
          · exact absurd ⟨v, hv, hbroken⟩ hrest
      · exact run_append_none (hnewline.run_none (run_messageLine hsender hpart)) _
  rintro ⟨name, attributes, children, hread⟩
  have hnone : run .text (render timezone workers views) = none := by
    have hhead := tokenized_head timezone workers (views.map fun view => view.msg)
    have hbody := hlines payloadTail
    rw [render_eq]
    exact hhead.run_none hbody
  rw [read_of_run_none hnone] at hread
  cases hread

end AgentDesk.Routing
