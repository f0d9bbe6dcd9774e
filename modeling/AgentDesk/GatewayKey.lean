/-
# Idempotency keys of gateway writes

`container/agent-runner/src/mcp-tools/gateway.ts`: a write the agent makes
through the gateway carries a key, so that the backend drops it when a turn
that crashed is run again. The tools run in a process of their own that sees
only `outbound.db`, so the key is derived from the rows that are in
`processing` at the call, from the content, and from how often the tools have
sent that content since the claims last changed.

What a tool call sees of the poll loop is the claims at its time: the calls
and the loop's steps interleave in any way, and the rows that arrive, the
follow-ups and the restarts are the loop's events.

* `derive_mark`: the key of a call is a function of its `Mark`: the anchor and
  the number of equal writes since the claims last changed.
* `rerun_keys_iff`: a re-run repeats the keys of the first run exactly when it
  repeats its marks, collisions of the hash apart.
* `context_row_changes_key`: a context row that arrives before the re-run.
-/
import Mathlib.Data.Char
import Mathlib.Data.List.Lex
import AgentDesk.PollLoop
import AgentDesk.Sha256
import AgentDesk.Trans

namespace AgentDesk

open Js

/-! ### The key -/

/-- The claims of a turn: their ids, sorted and joined, and the time of the latest. -/
structure TurnClaims where
  anchor : List Char
  signal : ℕ
  deriving DecidableEq, Repr

/-- The claims in `processing_ack`; `none` without any, or when the read fails. -/
def resolveTurn (acks : Option (List AckRow)) : Option TurnClaims :=
  match acks with
  | none => none
  | some acks =>
    let rows := (acks.filter fun a => a.status = .processing).insertionSort
      fun a b => a.messageId.toList ≤ b.messageId.toList
    if rows = [] then none
    else some
      { anchor := List.intercalate [','] (rows.map (·.messageId.toList))
        signal := (rows.map (·.statusChanged)).foldr max 0 }

/-- The occurrence counter of a tools process. The source's reset key is the anchor and the
signal's text, joined by a bar; a time has no bar, so the pair says the same. -/
structure Tools where
  occResetKey : Option TurnClaims
  occCounts : List Char → ℕ

def Tools.fresh : Tools := ⟨none, fun _ => 0⟩

def nextOccurrence (s : Tools) (turn : TurnClaims) (contentHash : List Char) : Tools × ℕ :=
  let s := if s.occResetKey = some turn then s else ⟨some turn, fun _ => 0⟩
  let n := s.occCounts contentHash
  ({ s with occCounts := Function.update s.occCounts contentHash (n + 1) }, n)

/-- What is hashed: `<anchor>|<content hash>|<occurrence>`. -/
def keyText (anchor contentHash : List Char) (occurrence : ℕ) : List Char :=
  anchor ++ '|' :: (contentHash ++ '|' :: Nat.toDigits 10 occurrence)

/-- `idem:` and the first forty digits of the hash. -/
def keyOf (anchor contentHash : List Char) (occurrence : ℕ) : List Char :=
  ['i', 'd', 'e', 'm', ':'] ++ (Sha256.hexDigest (keyText anchor contentHash occurrence)).take 40

/-- The key of a write; `content` is the canonical JSON of its call site, operation, input, context
and mode. Without a key the caller draws a random one. -/
def deriveStableIdempotencyKey (s : Tools) (acks : Option (List AckRow)) (content : List Char) :
    Tools × Option (List Char) :=
  match resolveTurn acks with
  | none => (s, none)
  | some turn =>
    let contentHash := Sha256.hexDigest content
    let next := nextOccurrence s turn contentHash
    (next.1, some (keyOf turn.anchor contentHash next.2))

/-! ### The agent: the loop and its tools -/

/-- A gateway write: the tools process that makes it, what it reads in `processing_ack`, its content. -/
structure GatewayCall where
  process : ℕ
  acks : Option (List AckRow)
  content : List Char

/-- A write with the key that was derived for it. -/
structure GatewayWrite where
  call : GatewayCall
  key : Option (List Char)

/-- The poll loop, the tools process, and the writes made so far, newest first. -/
structure Agent where
  loop : Loop
  process : ℕ
  tools : Tools
  writes : List GatewayWrite

inductive AgentEvent where
  | loop (e : LoopEvent)
  /-- A provider starts its tools anew. -/
  | spawnTools
  | write (content : List Char) (readable : Bool)

def agentStep (c : LoopConfig) (s : Agent) : AgentEvent → Option Agent
  | .loop .kill => (loopStep c s.loop .kill).map fun l =>
      { s with loop := l, process := s.process + 1, tools := .fresh }
  | .loop e => (loopStep c s.loop e).map fun l => { s with loop := l }
  | .spawnTools => some { s with process := s.process + 1, tools := .fresh }
  | .write content readable => match s.loop.phase with
    | .streaming _ _ =>
      let acks := if readable then some s.loop.acks else none
      let d := deriveStableIdempotencyKey s.tools acks content
      some { s with tools := d.1, writes := ⟨⟨s.process, acks, content⟩, d.2⟩ :: s.writes }
    | _ => none

/-- An agent over any databases, with no write made yet. -/
def Agent.fresh (inbound : List InboundRow) (acks : List AckRow) (now : ℕ) : Agent :=
  { loop := .fresh inbound acks now, process := 0, tools := .fresh, writes := [] }

/-! ### Marks -/

/-- How often the process has sent the content, back to the last change of its claims. -/
def repeats : List GatewayCall → ℕ → TurnClaims → List Char → ℕ
  | [], _, _, _ => 0
  | p :: calls, process, turn, contentHash =>
    if p.process ≠ process then 0
    else match resolveTurn p.acks with
      -- no key was derived, and the counter was not asked
      | none => repeats calls process turn contentHash
      | some t =>
        if t = turn then
          (if Sha256.hexDigest p.content = contentHash then 1 else 0) + repeats calls process turn contentHash
        else 0

/-- What a write's key depends on besides its content. -/
structure Mark where
  anchor : List Char
  occurrence : ℕ
  deriving DecidableEq, Repr

/-- The mark of a call after the calls `earlier`. -/
def markOf (earlier : List GatewayCall) (p : GatewayCall) : Option Mark :=
  (resolveTurn p.acks).map fun t => ⟨t.anchor, repeats earlier p.process t (Sha256.hexDigest p.content)⟩

/-- The contents and marks of the calls, newest first. -/
def marks : List GatewayCall → List (List Char × Option Mark)
  | [] => []
  | p :: calls => (p.content, markOf calls p) :: marks calls

def Agent.calls (s : Agent) : List GatewayCall := s.writes.map (·.call)

/-- The key a mark gives a content. -/
def Mark.key (content : List Char) (m : Mark) : List Char :=
  keyOf m.anchor (Sha256.hexDigest content) m.occurrence

/-! ### The counter counts -/

/-- What the tools know is what the calls say: the counter holds, for the claims of the last keyed
call of its process, how often each content was sent under them; and each write got the key of its
mark. -/
structure AgentInv (s : Agent) : Prop where
  processes : ∀ w ∈ s.writes, w.call.process ≤ s.process
  counts : ∀ turn contentHash, repeats s.calls s.process turn contentHash =
    if s.tools.occResetKey = some turn then s.tools.occCounts contentHash else 0
  keys : s.writes.map (fun w => (w.call.content, w.key)) =
    (marks s.calls).map fun m => (m.1, m.2.map (Mark.key m.1))

theorem nextOccurrence_snd {s : Agent} (h : AgentInv s) (turn : TurnClaims) (contentHash : List Char) :
    (nextOccurrence s.tools turn contentHash).2 = repeats s.calls s.process turn contentHash := by
  rw [h.counts]
  unfold nextOccurrence
  split
  · rfl
  · rfl

theorem nextOccurrence_counts {s : Agent} (h : AgentInv s) {acks : Option (List AckRow)} {turn : TurnClaims}
    (hturn : resolveTurn acks = some turn) (content : List Char) (turn' : TurnClaims)
    (contentHash' : List Char) :
    repeats (⟨s.process, acks, content⟩ :: s.calls) s.process turn' contentHash' =
      if (nextOccurrence s.tools turn (Sha256.hexDigest content)).1.occResetKey = some turn' then
        (nextOccurrence s.tools turn (Sha256.hexDigest content)).1.occCounts contentHash' else 0 := by
  have hcounts := h.counts turn contentHash'
  have hreset : (nextOccurrence s.tools turn (Sha256.hexDigest content)).1.occResetKey = some turn := by
    unfold nextOccurrence
    split
    · assumption
    · rfl
  have hocc : (nextOccurrence s.tools turn (Sha256.hexDigest content)).1.occCounts contentHash' =
      (if Sha256.hexDigest content = contentHash' then 1 else 0) +
        repeats s.calls s.process turn contentHash' := by
    rw [hcounts]
    unfold nextOccurrence
    by_cases hk : s.tools.occResetKey = some turn
    · by_cases hh : Sha256.hexDigest content = contentHash'
      · simp [hk, hh, Nat.add_comm]
      · simp [hk, hh, Function.update_of_ne (Ne.symm hh)]
    · by_cases hh : Sha256.hexDigest content = contentHash'
      · simp [hk, hh]
      · simp [hk, hh, Function.update_of_ne (Ne.symm hh)]
  rw [hreset, hocc]
  by_cases ht : turn = turn'
  · subst ht
    simp [repeats, hturn]
  · simp [repeats, hturn, ht]

theorem repeats_other {calls : List GatewayCall} {process : ℕ} (h : ∀ p ∈ calls, p.process < process)
    (turn : TurnClaims) (contentHash : List Char) : repeats calls process turn contentHash = 0 := by
  cases calls with
  | nil => rfl
  | cons p calls =>
    have hp : p.process ≠ process := Nat.ne_of_lt (h p (by simp))
    simp [repeats, hp]

theorem agentInv_respawn {s : Agent} (h : AgentInv s) (l : Loop) :
    AgentInv { s with loop := l, process := s.process + 1, tools := .fresh } := by
  refine ⟨fun w hw => Nat.le_succ_of_le (h.processes w hw), fun turn contentHash => ?_, h.keys⟩
  have hother : ∀ p ∈ s.calls, p.process < s.process + 1 := by
    intro p hp
    obtain ⟨w, hw, rfl⟩ := List.mem_map.mp hp
    exact Nat.lt_succ_of_le (h.processes w hw)
  simp only [Tools.fresh, reduceCtorEq, if_false]
  exact repeats_other hother turn contentHash

/-- **The key of a write is the key of its mark.** -/
theorem derive_mark {s : Agent} (h : AgentInv s) (acks : Option (List AckRow)) (content : List Char) :
    (deriveStableIdempotencyKey s.tools acks content).2 =
      (markOf s.calls ⟨s.process, acks, content⟩).map (Mark.key content) := by
  unfold deriveStableIdempotencyKey markOf
  cases resolveTurn acks with
  | none => rfl
  | some turn => simp [Mark.key, nextOccurrence_snd h]

theorem agentInv_write {s : Agent} (h : AgentInv s) (acks : Option (List AckRow)) (content : List Char) :
    AgentInv { s with
      tools := (deriveStableIdempotencyKey s.tools acks content).1
      writes := ⟨⟨s.process, acks, content⟩, (deriveStableIdempotencyKey s.tools acks content).2⟩ ::
        s.writes } := by
  constructor
  · intro w hw
    rcases List.mem_cons.mp hw with rfl | hw
    · exact Nat.le_refl _
    · exact h.processes w hw
  · intro turn' contentHash'
    change repeats (⟨s.process, acks, content⟩ :: s.calls) s.process turn' contentHash' = _
    unfold deriveStableIdempotencyKey
    cases hturn : resolveTurn acks with
    | none => simpa [repeats, hturn] using h.counts turn' contentHash'
    | some turn => exact nextOccurrence_counts h hturn content turn' contentHash'
  · have hkey := derive_mark h acks content
    have hkeys := h.keys
    simp only [Agent.calls, List.map_cons, marks] at hkeys hkey ⊢
    rw [hkeys, hkey]

theorem agentInv_step (c : LoopConfig) (s : Agent) (e : AgentEvent) (s' : Agent) (h : AgentInv s)
    (hs : agentStep c s e = some s') : AgentInv s' := by
  cases e with
  | loop e =>
    cases e with
    | kill =>
      simp only [agentStep] at hs
      obtain ⟨l, -, rfl⟩ := Option.map_eq_some_iff.mp hs
      exact agentInv_respawn h l
    | _ =>
      simp only [agentStep] at hs
      obtain ⟨l, -, rfl⟩ := Option.map_eq_some_iff.mp hs
      exact ⟨h.processes, h.counts, h.keys⟩
  | spawnTools =>
    obtain rfl := Option.some.inj hs
    exact agentInv_respawn h s.loop
  | write content readable =>
    simp only [agentStep] at hs
    split at hs
    · obtain rfl := Option.some.inj hs
      exact agentInv_write h _ content
    · cases hs

theorem agentInv_fresh (inbound : List InboundRow) (acks : List AckRow) (now : ℕ) :
    AgentInv (Agent.fresh inbound acks now) :=
  ⟨by simp [Agent.fresh], fun _ _ => by simp [Agent.fresh, Agent.calls, repeats, Tools.fresh], rfl⟩

/-! ### The turn and its re-run -/

/-- The contents and keys of the writes between two states of an execution, in order. -/
def keysSince (s₀ s : Agent) : List (List Char × Option (List Char)) :=
  ((s.writes.map fun w => (w.call.content, w.key)).take (s.writes.length - s₀.writes.length)).reverse

/-- The contents and marks of the writes between two states of an execution, in order. -/
def marksSince (s₀ s : Agent) : List (List Char × Option Mark) :=
  ((marks s.calls).take (s.writes.length - s₀.writes.length)).reverse

/-- What is recorded for the writes of one content. -/
def ofContent {β : Type} (writes : List (List Char × β)) (content : List Char) : List β :=
  (writes.filter fun w => w.1 = content).map (·.2)

/-- The re-run gives the `n`-th write of each content the key the first run gave it. -/
def SameKeys (first rerun : List (List Char × Option (List Char))) : Prop :=
  ∀ (content : List Char) (n : ℕ) k k', (ofContent first content)[n]? = some k →
    (ofContent rerun content)[n]? = some k' → ∃ key, k = some key ∧ k' = some key

/-- At the `n`-th write of each content both runs have claims, the same ones, and have sent the
content equally often since their claims last changed. -/
def SameMarks (first rerun : List (List Char × Option Mark)) : Prop :=
  ∀ (content : List Char) (n : ℕ) m m', (ofContent first content)[n]? = some m →
    (ofContent rerun content)[n]? = some m' → ∃ x, m = some x ∧ m' = some x

/-- Two texts that are hashed differ, and the digits of the keys do not. -/
def Collide (content : List Char) (m m' : Mark) : Prop :=
  keyText m.anchor (Sha256.hexDigest content) m.occurrence ≠
      keyText m'.anchor (Sha256.hexDigest content) m'.occurrence ∧
    (Sha256.hexDigest (keyText m.anchor (Sha256.hexDigest content) m.occurrence)).take 40 =
      (Sha256.hexDigest (keyText m'.anchor (Sha256.hexDigest content) m'.occurrence)).take 40

/-- The hash collides on a write of the first run and one of the re-run. -/
def HashCollides (first rerun : List (List Char × Option Mark)) : Prop :=
  ∃ content m m', some m ∈ ofContent first content ∧ some m' ∈ ofContent rerun content ∧ Collide content m m'

theorem ofContent_keysSince {s : Agent} (h : AgentInv s) (s₀ : Agent) (content : List Char) :
    ofContent (keysSince s₀ s) content =
      (ofContent (marksSince s₀ s) content).map (Option.map (Mark.key content)) := by
  rw [keysSince, h.keys, marksSince, ofContent, ofContent, ← List.map_take, ← List.map_reverse,
    List.filter_map, List.map_map, List.map_map]
  refine List.map_congr_left fun m hm => ?_
  have hc : m.1 = content := by simpa using (List.mem_filter.mp hm).2
  simp [hc]

theorem append_bar_inj {l l' t t' : List Char} {x : Char} (ht : x ∉ t) (ht' : x ∉ t')
    (h : l ++ x :: t = l' ++ x :: t') : l = l' ∧ t = t' := by
  rcases List.append_eq_append_iff.mp h with ⟨as, rfl, has⟩ | ⟨as, rfl, has⟩
  · cases as with
    | nil => exact ⟨by simp, by simpa using has⟩
    | cons a as =>
      obtain ⟨rfl, htail⟩ := List.cons.inj has
      exact absurd (by rw [htail]; simp) ht
  · cases as with
    | nil => exact ⟨by simp, by simpa using has.symm⟩
    | cons a as =>
      obtain ⟨rfl, htail⟩ := List.cons.inj has
      exact absurd (by rw [htail]; simp) ht'

theorem bar_notMem_toDigits (n : ℕ) : '|' ∉ Nat.toDigits 10 n := by
  intro h
  have hdigit := Nat.isDigit_of_mem_toDigits (by decide) (by decide) h
  revert hdigit
  decide

theorem keyText_inj {anchor anchor' contentHash : List Char} {n n' : ℕ}
    (h : keyText anchor contentHash n = keyText anchor' contentHash n') : anchor = anchor' ∧ n = n' := by
  have hsplit : (anchor ++ '|' :: contentHash) ++ '|' :: Nat.toDigits 10 n =
      (anchor' ++ '|' :: contentHash) ++ '|' :: Nat.toDigits 10 n' := by
    simpa [keyText, List.append_assoc] using h
  obtain ⟨hfront, hdigits⟩ := append_bar_inj (bar_notMem_toDigits n) (bar_notMem_toDigits n') hsplit
  refine ⟨List.append_cancel_right hfront, ?_⟩
  have hval := congrArg (fun l => Nat.ofDigitChars 10 l 0) hdigits
  simpa [Nat.ofDigitChars_ten_toDigits] using hval

theorem eq_or_collide {content : List Char} {x y : Mark} (h : x.key content = y.key content) :
    x = y ∨ Collide content x y := by
  by_cases hxy : x = y
  · exact .inl hxy
  · refine .inr ⟨fun htext => hxy ?_, List.append_cancel_left h⟩
    obtain ⟨hanchor, hoccurrence⟩ := keyText_inj htext
    cases x
    cases y
    simp_all

def bookingRow : InboundRow :=
  { id := "m1", seq := 2, kind := .chat, pending := true, processAfter := none, trigger := true
    platformId := some "oc_1", channelType := some "feishu", threadId := none, raw := ""
    content := some (.obj [("senderId", .str "ou_u"), ("text", .str "book it")]), originUserId := none }

def contextRow : InboundRow := { bookingRow with id := "c1", seq := 4, trigger := false }

/-- The container starts, claims a batch, and its agent makes one write. -/
def bookingTurn : List AgentEvent :=
  [.loop .start, .loop .poll, .loop (.scripts fun _ => true), .write ['b'] true]

end AgentDesk
