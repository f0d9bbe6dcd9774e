/-
# How an event stream is read

Event streams as a server may write them: every event has its fields in lines, its JSON split over as many `data:`
lines as it likes, blanks around the values, other lines in between, and lines end with a line feed, with a carriage
return before it or with a carriage return alone. Lines are split at line feeds only, so the last of these is not
understood. A stream may break off anywhere.

* `readLines_event`: an event is read as what its fields say.
* `read_stream`: so is the whole of a stream.
* `parse_stream`: what `parseSseResponse` makes of it.
-/
import AgentDesk.SseResponse

namespace AgentDesk

open JsonText

/-! ### How an event is written -/

inductive LineEnding where
  | lf | crlf | cr
  deriving DecidableEq

def LineEnding.text : LineEnding → Text
  | lf => [0x0a]
  | crlf => [0x0d, 0x0a]
  | cr => [0x0d]

/-- A text within a line. -/
def InLine (t : Text) : Prop := 0x0a ∉ t ∧ 0x0d ∉ t

/-- A value and the blanks around it. -/
structure Padded where
  before : Text
  value : Text
  after : Text
  blank : ∀ c ∈ before ++ after, isSpaceUnit c = true
  trimmed : trimText value = value
  inLine : InLine (before ++ value ++ after)

def Padded.text (p : Padded) : Text := p.before ++ p.value ++ p.after

/-- A comment, or another field. -/
structure OtherLine where
  text : Text
  inLine : InLine text
  notBlank : SseState.trimEnd text ≠ []
  notEvent : SseState.eventField.isPrefixOf (SseState.trimEnd text) = false
  notData : SseState.dataField.isPrefixOf (SseState.trimEnd text) = false

inductive SseField where
  | event (name : Padded)
  | data (chunk : Padded)
  | other (line : OtherLine)

def SseField.text : SseField → Text
  | event name => SseState.eventField ++ name.text
  | data chunk => SseState.dataField ++ chunk.text
  | other line => line.text

structure SseLine where
  field : SseField
  ending : LineEnding

def SseLine.text (l : SseLine) : Text := l.field.text ++ l.ending.text

def SseField.name? : SseField → Option Text
  | event name => some name.value
  | _ => none

def SseField.chunk? : SseField → Option Text
  | data chunk => some chunk.value
  | _ => none

/-- An event: its lines, and the empty lines after them. -/
structure SseEvent where
  lines : List SseLine
  empty : List LineEnding
  ends : empty ≠ []

def SseEvent.text (e : SseEvent) : Text := e.lines.flatMap SseLine.text ++ e.empty.flatMap LineEnding.text

/-- What the fields of an event say: its name, and the JSON object in its data. -/
def readFields (fields : List SseField) : Option (Text × JsonObject) :=
  (parseRecord (trimText (joinLines (fields.filterMap SseField.chunk?)))).map fun payload =>
    ((fields.filterMap SseField.name?).getLastD [], payload)

def SseEvent.received (e : SseEvent) : Option (Text × JsonObject) := readFields (e.lines.map (·.field))

/-- A stream, as far as it was received: its events, and the lines of one that has not ended, the last of which may
be without its end or have a carriage return only. -/
structure SseStream where
  events : List SseEvent
  tail : List SseLine
  unfinished : Option SseField
  carriageReturn : Bool

namespace SseStream

def lastLine (stream : SseStream) : Text :=
  (stream.unfinished.map SseField.text).getD [] ++ if stream.carriageReturn then [0x0d] else []

def text (stream : SseStream) : Text :=
  stream.events.flatMap SseEvent.text ++ (stream.tail.flatMap SseLine.text ++ stream.lastLine)

def tailFields (stream : SseStream) : List SseField := stream.tail.map (·.field) ++ stream.unfinished.toList

/-- The events that say something. -/
def received (stream : SseStream) : List (Text × JsonObject) :=
  stream.events.filterMap SseEvent.received ++ (readFields stream.tailFields).toList

/-- No line ends with a carriage return alone, but for one that may be cut. -/
structure NoLoneCr (stream : SseStream) : Prop where
  lines : ∀ e ∈ stream.events, ∀ l ∈ e.lines, l.ending ≠ .cr
  empty : ∀ e ∈ stream.events, LineEnding.cr ∉ e.empty
  tail : ∀ l ∈ stream.tail, l.ending ≠ .cr

end SseStream

theorem filterMap_cons_toList {α β : Type} (f : α → Option β) (a : α) (l : List α) :
    (a :: l).filterMap f = (f a).toList ++ l.filterMap f := by
  cases h : f a with
  | some b => rw [List.filterMap_cons_some h, Option.toList_some, List.singleton_append]
  | none => rw [List.filterMap_cons_none h, Option.toList_none, List.nil_append]

/-! ### How a line is read -/

namespace SseState

theorem trimEnd_append {t : Text} {c : UInt16} (hc : isSpaceUnit c = false) (u : Text) :
    trimEnd (t ++ c :: u) = t ++ c :: trimEnd u := by
  have hreverse : (t ++ c :: u).reverse = u.reverse ++ c :: t.reverse := by simp
  have hstop : (c :: t.reverse).dropWhile isSpaceUnit = c :: t.reverse := dropWhile_of_head hc _
  rw [trimEnd, trimEnd, List.rdropWhile, List.rdropWhile, hreverse, List.dropWhile_append, hstop]
  by_cases hnil : u.reverse.dropWhile isSpaceUnit = []
  · rw [hnil]
    simp
  · have hne : (u.reverse.dropWhile isSpaceUnit).isEmpty = false := by simpa using hnil
    rw [hne, if_neg Bool.false_ne_true]
    simp

theorem trimEnd_blank {t a : Text} (ha : ∀ c ∈ a, isSpaceUnit c = true) : trimEnd (t ++ a) = trimEnd t := by
  rw [trimEnd, trimEnd, List.rdropWhile, List.rdropWhile, List.reverse_append,
    List.dropWhile_append_of_pos fun c hc => ha c (List.mem_reverse.mp hc)]

theorem trimText_eq (t : Text) : trimText t = trimEnd (t.dropWhile isSpaceUnit) := rfl

theorem trimText_after {t a : Text} (ha : ∀ c ∈ a, isSpaceUnit c = true) : trimText (t ++ a) = trimText t := by
  rw [trimText_eq, trimText_eq, List.dropWhile_append]
  by_cases hnil : t.dropWhile isSpaceUnit = []
  · have hnone : a.dropWhile isSpaceUnit = [] := List.dropWhile_eq_nil_iff.mpr ha
    rw [hnil, hnone]
    rfl
  · have hne : (t.dropWhile isSpaceUnit).isEmpty = false := by simpa using hnil
    rw [hne, if_neg Bool.false_ne_true, trimEnd_blank ha]

theorem trimText_before {b t : Text} (hb : ∀ c ∈ b, isSpaceUnit c = true) : trimText (b ++ t) = trimText t := by
  rw [trimText_eq, trimText_eq, List.dropWhile_append_of_pos hb]

theorem trimText_trimEnd (t : Text) : trimText (trimEnd t) = trimText t := by
  have hsplit : trimEnd t ++ t.rtakeWhile isSpaceUnit = t := List.rdropWhile_append_rtakeWhile ..
  have hblank : ∀ c ∈ t.rtakeWhile isSpaceUnit, isSpaceUnit c = true := by
    intro c hc
    exact List.mem_rtakeWhile_imp hc
  rw [← trimText_after hblank, hsplit]

theorem trimText_padded (p : Padded) : trimText p.text = p.value := by
  have hbefore : ∀ c ∈ p.before, isSpaceUnit c = true := fun c hc => p.blank c (List.mem_append_left _ hc)
  have hafter : ∀ c ∈ p.after, isSpaceUnit c = true := fun c hc => p.blank c (List.mem_append_right _ hc)
  rw [Padded.text, trimText_after hafter, trimText_before hbefore, p.trimmed]

/-! ### How a stream is read -/

/-- What the fields of a line are for the state. -/
def field (s : SseState) : SseField → SseState
  | .event name => { s with currentEvent := name.value }
  | .data chunk => { s with dataLines := s.dataLines ++ [chunk.value] }
  | .other _ => s

theorem eventField_eq : eventField = ofString "event" ++ [0x3a] := rfl

theorem dataField_eq : dataField = ofString "data" ++ [0x3a] := rfl

theorem event_not_data (t : Text) : eventField.isPrefixOf (dataField ++ t) = false := rfl

theorem readLine_field (s : SseState) (f : SseField) {a : Text} (ha : ∀ c ∈ a, isSpaceUnit c = true) :
    s.readLine (f.text ++ a) = s.field f := by
  have hcolon : isSpaceUnit 0x3a = false := by decide
  rw [readLine, trimEnd_blank ha]
  cases f with
  | event name =>
    have hline : trimEnd (SseField.event name).text = eventField ++ trimEnd name.text := by
      rw [SseField.text, eventField_eq, List.append_assoc, List.append_assoc]
      exact trimEnd_append hcolon _
    have hprefix : eventField.isPrefixOf (eventField ++ trimEnd name.text) = true :=
      List.isPrefixOf_iff_prefix.mpr (List.prefix_append _ _)
    rw [hline, if_neg (by simp [eventField_eq]), if_pos hprefix, List.drop_left, trimText_trimEnd, trimText_padded]
    rfl
  | data chunk =>
    have hline : trimEnd (SseField.data chunk).text = dataField ++ trimEnd chunk.text := by
      rw [SseField.text, dataField_eq, List.append_assoc, List.append_assoc]
      exact trimEnd_append hcolon _
    have hprefix : dataField.isPrefixOf (dataField ++ trimEnd chunk.text) = true :=
      List.isPrefixOf_iff_prefix.mpr (List.prefix_append _ _)
    rw [hline, if_neg (by simp [dataField_eq]), if_neg (by rw [event_not_data]; exact Bool.false_ne_true),
      if_pos hprefix, List.drop_left, trimText_trimEnd, trimText_padded]
    rfl
  | other line =>
    rw [SseField.text, if_neg line.notBlank, if_neg (by rw [line.notEvent]; exact Bool.false_ne_true),
      if_neg (by rw [line.notData]; exact Bool.false_ne_true)]
    rfl

theorem readLine_blank (s : SseState) {a : Text} (ha : ∀ c ∈ a, isSpaceUnit c = true) :
    s.readLine a = s.flushEvent := by
  have hnil : trimEnd a = [] := by
    have h := trimEnd_blank (t := []) ha
    rw [List.nil_append] at h
    rw [h]
    rfl
  rw [readLine, if_pos hnil]

/-- Nothing of an event has been read. -/
structure Clean (s : SseState) : Prop where
  currentEvent : s.currentEvent = []
  dataLines : s.dataLines = []

theorem flushEvent_clean {s : SseState} (h : s.Clean) : s.flushEvent = s := by
  obtain ⟨response, outputItems, textByItemId, currentEvent, dataLines⟩ := s
  obtain ⟨rfl, rfl⟩ := h
  have hnone : parseRecord (trimText (joinLines [])) = none := by decide
  rw [flushEvent, hnone]

theorem flushEvent_flushEvent (s : SseState) : s.flushEvent.flushEvent = s.flushEvent := by
  have hclean : s.flushEvent.Clean := by
    rw [flushEvent]
    cases parseRecord (trimText (joinLines s.dataLines)) with
    | some payload => exact ⟨rfl, rfl⟩
    | none => exact ⟨rfl, rfl⟩
  exact flushEvent_clean hclean

theorem fields_eq (fs : List SseField) (s : SseState) : fs.foldl field s =
    { s with
      currentEvent := (fs.filterMap SseField.name?).getLastD s.currentEvent
      dataLines := s.dataLines ++ fs.filterMap SseField.chunk? } := by
  induction fs generalizing s with
  | nil => simp
  | cons f fs ih =>
    rw [List.foldl_cons, ih]
    cases f with
    | event name =>
      have hname : ((SseField.event name :: fs).filterMap SseField.name?) =
          name.value :: fs.filterMap SseField.name? := rfl
      rw [hname, List.getLastD_cons]
      rfl
    | data chunk =>
      have hchunk : ((SseField.data chunk :: fs).filterMap SseField.chunk?) =
          chunk.value :: fs.filterMap SseField.chunk? := rfl
      rw [hchunk, List.append_cons]
      rfl
    | other line => rfl

theorem notMem_padded (p : Padded) : 0x0a ∉ p.text := p.inLine.1

theorem notMem_field (f : SseField) : 0x0a ∉ f.text := by
  have hevent : 0x0a ∉ eventField := by decide
  have hdata : 0x0a ∉ dataField := by decide
  cases f with
  | event name => exact fun h => (List.mem_append.mp h).elim hevent (notMem_padded name)
  | data chunk => exact fun h => (List.mem_append.mp h).elim hdata (notMem_padded chunk)
  | other line => exact line.inLine.1

/-- The carriage return of a line that has one. -/
def returnOf : LineEnding → Text
  | .crlf => [0x0d]
  | _ => []

theorem ending_text {e : LineEnding} (h : e ≠ .cr) : e.text = returnOf e ++ [0x0a] := by
  cases e with
  | lf => rfl
  | crlf => rfl
  | cr => exact absurd rfl h

theorem returnOf_blank (e : LineEnding) : ∀ c ∈ returnOf e, isSpaceUnit c = true := by
  cases e with
  | lf => exact fun c hc => absurd hc List.not_mem_nil
  | crlf => exact List.forall_mem_singleton.mpr (by decide)
  | cr => exact fun c hc => absurd hc List.not_mem_nil

theorem returnOf_inLine (e : LineEnding) : 0x0a ∉ returnOf e := by cases e <;> decide

theorem lines_cons {t : Text} (h : 0x0a ∉ t) (rest : Text) : lines (t ++ 0x0a :: rest) = t :: lines rest := by
  have hone : lines t = [t] := List.splitOn_eq_singleton h
  rw [lines_append, hone]
  rfl

theorem readLines_lines (ls : List SseLine) (hcr : ∀ l ∈ ls, l.ending ≠ .cr) (s : SseState) (rest : Text) :
    (lines (ls.flatMap SseLine.text ++ rest)).foldl readLine s =
      (lines rest).foldl readLine ((ls.map (·.field)).foldl field s) := by
  induction ls generalizing s with
  | nil => rfl
  | cons l ls ih =>
    have hline : (l :: ls).flatMap SseLine.text ++ rest =
        (l.field.text ++ returnOf l.ending) ++ 0x0a :: (ls.flatMap SseLine.text ++ rest) := by
      rw [List.flatMap_cons, SseLine.text, ending_text (hcr l List.mem_cons_self)]
      simp
    have hnot : 0x0a ∉ l.field.text ++ returnOf l.ending := fun h =>
      (List.mem_append.mp h).elim (notMem_field l.field) (returnOf_inLine l.ending)
    rw [hline, lines_cons hnot, List.foldl_cons, readLine_field s l.field (returnOf_blank l.ending),
      ih (fun l' hl => hcr l' (List.mem_cons_of_mem l hl)), List.map_cons, List.foldl_cons]

theorem readLines_empty {es : List LineEnding} (hcr : LineEnding.cr ∉ es) {s : SseState} (hs : s.Clean) (rest : Text) :
    (lines (es.flatMap LineEnding.text ++ rest)).foldl readLine s = (lines rest).foldl readLine s := by
  induction es with
  | nil => rfl
  | cons e es ih =>
    have hline : (e :: es).flatMap LineEnding.text ++ rest =
        returnOf e ++ 0x0a :: (es.flatMap LineEnding.text ++ rest) := by
      rw [List.flatMap_cons, ending_text fun he => hcr (he ▸ List.mem_cons_self)]
      simp
    rw [hline, lines_cons (returnOf_inLine e), List.foldl_cons, readLine_blank s (returnOf_blank e),
      flushEvent_clean hs, ih fun h => hcr (List.mem_cons_of_mem e h)]

/-- What an event does, if it says something. -/
def receive (s : SseState) : Option (Text × JsonObject) → SseState
  | some (name, payload) => s.received name payload
  | none => s

theorem receive_clean {s : SseState} (h : s.Clean) (r : Option (Text × JsonObject)) : (s.receive r).Clean := by
  cases r with
  | some r => exact ⟨h.currentEvent, h.dataLines⟩
  | none => exact h

theorem flushEvent_fields {s : SseState} (hs : s.Clean) (fields : List SseField) :
    (fields.foldl field s).flushEvent = s.receive (readFields fields) := by
  obtain ⟨response, outputItems, textByItemId, currentEvent, dataLines⟩ := s
  obtain ⟨rfl, rfl⟩ := hs
  rw [fields_eq, List.nil_append, flushEvent, readFields]
  cases parseRecord (trimText (joinLines (fields.filterMap SseField.chunk?))) with
  | some payload => rfl
  | none => rfl

/-- **An event is read as what its fields say**, however it is written. -/
theorem readLines_event (e : SseEvent) (hlines : ∀ l ∈ e.lines, l.ending ≠ .cr) (hempty : LineEnding.cr ∉ e.empty)
    {s : SseState} (hs : s.Clean) (rest : Text) : (lines (e.text ++ rest)).foldl readLine s =
      (lines rest).foldl readLine (s.receive e.received) := by
  obtain ⟨first, more, heq⟩ := List.exists_cons_of_ne_nil e.ends
  have hfirst : first ≠ .cr := fun he => hempty (by rw [heq, he]; exact List.mem_cons_self)
  have hmore : LineEnding.cr ∉ more := fun h => hempty (by rw [heq]; exact List.mem_cons_of_mem _ h)
  have htext : e.text ++ rest =
      e.lines.flatMap SseLine.text ++ (returnOf first ++ 0x0a :: (more.flatMap LineEnding.text ++ rest)) := by
    rw [SseEvent.text, heq, List.flatMap_cons, ending_text hfirst]
    simp
  rw [htext, readLines_lines e.lines hlines, lines_cons (returnOf_inLine first), List.foldl_cons,
    readLine_blank _ (returnOf_blank first), flushEvent_fields hs]
  exact readLines_empty hmore (receive_clean hs _) rest

/-- What the events do. -/
def receiveAll (s : SseState) (received : List (Text × JsonObject)) : SseState :=
  received.foldl (fun s r => s.received r.1 r.2) s

theorem receiveAll_append (s : SseState) (r r' : List (Text × JsonObject)) :
    s.receiveAll (r ++ r') = (s.receiveAll r).receiveAll r' := List.foldl_append ..

theorem receiveAll_clean {s : SseState} (hs : s.Clean) (received : List (Text × JsonObject)) :
    (s.receiveAll received).Clean := by
  induction received generalizing s with
  | nil => exact hs
  | cons r received ih => exact ih ⟨hs.currentEvent, hs.dataLines⟩

theorem receive_eq (s : SseState) (r : Option (Text × JsonObject)) : s.receive r = s.receiveAll r.toList := by
  cases r with
  | some r => rfl
  | none => rfl

theorem readLines_events (es : List SseEvent) (hlines : ∀ e ∈ es, ∀ l ∈ e.lines, l.ending ≠ .cr)
    (hempty : ∀ e ∈ es, LineEnding.cr ∉ e.empty) {s : SseState} (hs : s.Clean) (rest : Text) :
    (lines (es.flatMap SseEvent.text ++ rest)).foldl readLine s = (lines rest).foldl readLine
      (s.receiveAll (es.filterMap SseEvent.received)) := by
  induction es generalizing s with
  | nil => rfl
  | cons e es ih =>
    have hfirst := readLines_event e (hlines e List.mem_cons_self) (hempty e List.mem_cons_self) hs
    rw [List.flatMap_cons, List.append_assoc, hfirst,
      ih (fun e' he => hlines e' (List.mem_cons_of_mem e he)) (fun e' he => hempty e' (List.mem_cons_of_mem e he))
        (receive_clean hs _), filterMap_cons_toList, receiveAll_append, receive_eq]

/-- **The whole of a stream is read as its events.** -/
theorem read_stream {stream : SseStream} (h : stream.NoLoneCr) :
    ((lines stream.text).foldl readLine initial).flushEvent = initial.receiveAll stream.received := by
  have hclean : initial.Clean := ⟨rfl, rfl⟩
  have hblank : ∀ c ∈ (if stream.carriageReturn then [0x0d] else [] : Text), isSpaceUnit c = true := by
    cases stream.carriageReturn with
    | true => exact List.forall_mem_singleton.mpr (by decide)
    | false => exact fun c hc => absurd hc List.not_mem_nil
  have hone : lines stream.lastLine = [stream.lastLine] := by
    refine List.splitOn_eq_singleton fun hmem => ?_
    rcases List.mem_append.mp hmem with hmem | hmem
    · cases hfield : stream.unfinished with
      | some f => exact notMem_field f (by rwa [hfield] at hmem)
      | none =>
        rw [hfield] at hmem
        exact absurd hmem List.not_mem_nil
    · have hno : 0x0a ∉ (if stream.carriageReturn then [0x0d] else [] : Text) := by
        cases stream.carriageReturn <;> decide
      exact hno hmem
  have hlast : ∀ s : SseState, (s.readLine stream.lastLine).flushEvent =
      (stream.unfinished.toList.foldl field s).flushEvent := by
    intro s
    rw [SseStream.lastLine]
    cases stream.unfinished with
    | some f => exact congrArg flushEvent (readLine_field s f hblank)
    | none =>
      rw [Option.map_none, Option.getD_none, List.nil_append, readLine_blank s hblank, flushEvent_flushEvent]
      rfl
  rw [SseStream.text, readLines_events stream.events h.lines h.empty hclean, readLines_lines stream.tail h.tail, hone,
    List.foldl_cons, List.foldl_nil, hlast, ← List.foldl_append, SseStream.received, receiveAll_append, ← receive_eq]
  exact flushEvent_fields (receiveAll_clean hclean _) stream.tailFields

end SseState

/-! ### What the events say together -/

/-- The output items that are announced. -/
def announcedItems (received : List (Text × JsonObject)) : List JsonObject :=
  received.filterMap fun r => announcedItem r.1 r.2

/-- The finished texts, the newest first. -/
def announcedTexts (received : List (Text × JsonObject)) : List (Text × Text) :=
  (received.filterMap fun r => announcedText r.1 r.2).reverse

/-- A response over the one before it. -/
def laidOver (response : Option JsonObject) (next : JsonObject) : Option JsonObject :=
  some ((response.getD emptyObject).spread next)

/-- The responses that are carried, one over the other. -/
def carried (received : List (Text × JsonObject)) : Option JsonObject :=
  (received.filterMap fun r => carriedResponse r.1 r.2).foldl laidOver none

theorem receiveAll_eq (received : List (Text × JsonObject)) (s : SseState) : s.receiveAll received =
    { s with
      response := (received.filterMap fun r => carriedResponse r.1 r.2).foldl laidOver s.response
      outputItems := s.outputItems ++ announcedItems received
      textByItemId := announcedTexts received ++ s.textByItemId } := by
  induction received generalizing s with
  | nil => simp [SseState.receiveAll, announcedItems, announcedTexts]
  | cons r received ih =>
    have hstep : s.receiveAll (r :: received) = (s.received r.1 r.2).receiveAll received := rfl
    have hitems : announcedItems (r :: received) = (announcedItem r.1 r.2).toList ++ announcedItems received :=
      filterMap_cons_toList ..
    have htexts : announcedTexts (r :: received) = announcedTexts received ++ (announcedText r.1 r.2).toList := by
      have hreverse : (announcedText r.1 r.2).toList.reverse = (announcedText r.1 r.2).toList := by
        cases announcedText r.1 r.2 <;> rfl
      rw [announcedTexts, announcedTexts, filterMap_cons_toList, List.reverse_append, hreverse]
    rw [hstep, ih, hitems, htexts, SseState.received, List.append_assoc, List.append_assoc, filterMap_cons_toList]
    cases carriedResponse r.1 r.2 with
    | some response => rfl
    | none => rfl

theorem infix_field {stream : SseStream} {f : SseField}
    (h : (∃ e ∈ stream.events, f ∈ e.lines.map (·.field)) ∨ f ∈ stream.tailFields) : f.text <:+: stream.text := by
  have hlines : ∀ {ls : List SseLine}, f ∈ ls.map (·.field) → f.text <:+: ls.flatMap SseLine.text := by
    intro ls hf
    obtain ⟨l, hl, rfl⟩ := List.mem_map.mp hf
    obtain ⟨before, after, rfl⟩ := List.append_of_mem hl
    refine ⟨before.flatMap SseLine.text, l.ending.text ++ after.flatMap SseLine.text, ?_⟩
    rw [List.flatMap_append, List.flatMap_cons, SseLine.text]
    simp
  rcases h with ⟨e, he, hf⟩ | hf
  · obtain ⟨before, after, hsplit⟩ := List.append_of_mem he
    have hevent : f.text <:+: e.text := (hlines hf).trans (List.prefix_append _ _).isInfix
    refine hevent.trans ⟨before.flatMap SseEvent.text, after.flatMap SseEvent.text ++
      (stream.tail.flatMap SseLine.text ++ stream.lastLine), ?_⟩
    rw [SseStream.text, hsplit, List.flatMap_append, List.flatMap_cons]
    simp
  · have htail : stream.tail.flatMap SseLine.text ++ stream.lastLine <:+: stream.text :=
      (List.suffix_append _ _).isInfix
    rcases List.mem_append.mp hf with hf | hf
    · exact ((hlines hf).trans (List.prefix_append _ _).isInfix).trans htail
    · have hlast : f.text <:+: stream.lastLine := by
        rw [SseStream.lastLine, Option.mem_toList.mp hf]
        exact (List.prefix_append _ _).isInfix
      exact (hlast.trans (List.suffix_append _ _).isInfix).trans htail

theorem fields_of_carried {stream : SseStream} (h : carried stream.received ≠ none) :
    SseState.eventField <:+: stream.text ∧ SseState.dataField <:+: stream.text := by
  obtain ⟨r, hr, hcarries⟩ : ∃ r ∈ stream.received, carriedResponse r.1 r.2 ≠ none := by
    by_contra hnone
    push Not at hnone
    exact h (by rw [carried, List.filterMap_eq_nil_iff.mpr hnone]; rfl)
  have hname : r.1 ≠ [] := by
    intro hnil
    rw [carriedResponse, hnil, if_neg (by decide)] at hcarries
    exact hcarries rfl
  obtain ⟨fields, hfields, hread⟩ : ∃ fields, ((∃ e ∈ stream.events, e.lines.map (·.field) = fields) ∨
      stream.tailFields = fields) ∧ readFields fields = some r := by
    rcases List.mem_append.mp hr with hr | hr
    · obtain ⟨e, he, hread⟩ := List.mem_filterMap.mp hr
      exact ⟨_, .inl ⟨e, he, rfl⟩, hread⟩
    · exact ⟨_, .inr rfl, Option.mem_toList.mp hr⟩
  obtain ⟨payload, hparse, rfl⟩ := Option.map_eq_some_iff.mp hread
  have hmem : ∀ f ∈ fields, f.text <:+: stream.text := by
    intro f hf
    rcases hfields with ⟨e, he, rfl⟩ | rfl
    · exact infix_field (.inl ⟨e, he, hf⟩)
    · exact infix_field (.inr hf)
  constructor
  · obtain ⟨name, hmember⟩ : ∃ name, name ∈ fields.filterMap SseField.name? := by
      refine List.exists_mem_of_ne_nil _ fun hnil => hname ?_
      rw [hnil]
      rfl
    obtain ⟨f, hf, hnamed⟩ := List.mem_filterMap.mp hmember
    cases f with
    | event name => exact (List.prefix_append _ _).isInfix.trans (hmem _ hf)
    | data chunk => cases hnamed
    | other line => cases hnamed
  · obtain ⟨chunk, hmember⟩ : ∃ chunk, chunk ∈ fields.filterMap SseField.chunk? := by
      refine List.exists_mem_of_ne_nil _ fun hnil => ?_
      have hnone : parseRecord (trimText (joinLines [])) = none := by decide
      rw [hnil, hnone] at hparse
      cases hparse
    obtain ⟨f, hf, hchunk⟩ := List.mem_filterMap.mp hmember
    cases f with
    | event name => cases hchunk
    | data chunk => exact (List.prefix_append _ _).isInfix.trans (hmem _ hf)
    | other line => cases hchunk

/-- The output that is returned. -/
def announcedOutput (received : List (Text × JsonObject)) : List JsonObject :=
  (announcedItems received).map (withText (announcedTexts received))

/-- `final`, of the responses and the output. -/
def finalResponse (output : List JsonObject) (response : JsonObject) : OpenAIResponse :=
  let final := { OpenAIResponse.ofObject response with output := some (output.map JsonObject.value) }
  { final with outputText := extractOutputText final }

theorem final_eq (s : SseState) (response : JsonObject) :
    s.final response = finalResponse (s.outputItems.map (withText s.textByItemId)) response := by
  rw [SseState.final, finalResponse, List.map_map]
  rfl

/-- **What `parseSseResponse` makes of a stream.** -/
theorem parse_stream {stream : SseStream} (h : stream.NoLoneCr) : parseSseResponse stream.text =
    (carried stream.received).map (finalResponse (announcedOutput stream.received)) := by
  rw [parseSseResponse, SseState.read_stream h, receiveAll_eq]
  by_cases hfields : SseState.eventField <:+: stream.text ∧ SseState.dataField <:+: stream.text
  · have htexts : announcedTexts stream.received ++ SseState.initial.textByItemId = announcedTexts stream.received :=
      List.append_nil _
    rw [if_pos hfields, htexts, SseState.initial, List.nil_append, ← carried]
    exact Option.map_congr fun response _ => final_eq _ response
  · have hnone : carried stream.received = none := Classical.byContradiction fun hne => hfields (fields_of_carried hne)
    rw [if_neg hfields, hnone]
    rfl

end AgentDesk
