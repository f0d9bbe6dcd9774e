/-
# Equal writes in one execution

`nextOccurrence` is there so that two writes of one content in one execution of a turn get two keys. It counts the
content, and starts again whenever the claims that the tools read are other ones: a follow-up that is claimed while the
turn runs changes them, and one that is skipped or given back changes them back. The claimed ids are in the key, the
time of the latest claim is not.

* `distinct_keys_iff`: in any execution the keys differ pairwise when, between two writes of one content under the
  same ids, no write was made under other claims; and when some was, two keys are the same, unless the tools had
  written under the same claims before the execution.
* `skipped_followup_repeats`: a scheduled task arrives while a turn runs, and its script does not wake the agent. The
  turn's second booking has the key of its first.
-/
import AgentDesk.GatewayKey

namespace AgentDesk

open Js

/-! ### Texts and keys -/

theorem length_hex (count n : ℕ) : (Sha256.hex count n).length = count := by
  induction count generalizing n with
  | zero => rfl
  | succ count ih => simp [Sha256.hex, ih]

theorem length_hexDigest (text : List Char) : (Sha256.hexDigest text).length = 64 := by
  simp [Sha256.hexDigest, length_hex]

theorem keyText_inj_hash {anchor anchor' content content' : List Char} {n n' : ℕ}
    (h : keyText anchor (Sha256.hexDigest content) n = keyText anchor' (Sha256.hexDigest content') n') :
    anchor = anchor' ∧ Sha256.hexDigest content = Sha256.hexDigest content' ∧ n = n' := by
  have hsplit : (anchor ++ '|' :: Sha256.hexDigest content) ++ '|' :: Nat.toDigits 10 n =
      (anchor' ++ '|' :: Sha256.hexDigest content') ++ '|' :: Nat.toDigits 10 n' := by
    simpa [keyText, List.append_assoc] using h
  obtain ⟨hfront, -⟩ := append_bar_inj (bar_notMem_toDigits n) (bar_notMem_toDigits n') hsplit
  have hlength : ('|' :: Sha256.hexDigest content).length = ('|' :: Sha256.hexDigest content').length := by
    simp [length_hexDigest]
  have hhash := (List.cons.inj (List.append_inj' hfront hlength).2).2
  rw [hhash] at h
  exact ⟨(keyText_inj h).1, hhash, (keyText_inj h).2⟩

/-- The texts that are hashed for the writes. -/
def hashedTexts (writes : List (List Char × Option Mark)) : List (List Char) :=
  writes.flatMap fun w =>
    w.1 :: (w.2.map fun m => keyText m.anchor (Sha256.hexDigest w.1) m.occurrence).toList

/-- Two of the texts have the digits of one key. -/
def DigitsCollide (texts : List (List Char)) : Prop :=
  ∃ a ∈ texts, ∃ b ∈ texts, a ≠ b ∧ (Sha256.hexDigest a).take 40 = (Sha256.hexDigest b).take 40

theorem mark_of_key {writes : List (List Char × Option Mark)} (hcollide : ¬DigitsCollide (hashedTexts writes))
    {content content' : List Char} {m m' : Mark} (hm : (content, some m) ∈ writes) (hm' : (content', some m') ∈ writes)
    (hkey : m.key content = m'.key content') : content = content' ∧ m = m' := by
  have hin : ∀ {c : List Char} {x : Mark}, (c, some x) ∈ writes →
      c ∈ hashedTexts writes ∧ keyText x.anchor (Sha256.hexDigest c) x.occurrence ∈ hashedTexts writes := by
    intro c x hx
    exact ⟨List.mem_flatMap.mpr ⟨_, hx, .head _⟩, List.mem_flatMap.mpr ⟨_, hx, .tail _ (.head _)⟩⟩
  have htext : keyText m.anchor (Sha256.hexDigest content) m.occurrence =
      keyText m'.anchor (Sha256.hexDigest content') m'.occurrence := by
    by_contra hne
    exact hcollide ⟨_, (hin hm).2, _, (hin hm').2, hne, List.append_cancel_left hkey⟩
  obtain ⟨hanchor, hhash, hoccurrence⟩ := keyText_inj_hash htext
  have hcontent : content = content' := by
    by_contra hne
    exact hcollide ⟨_, (hin hm).1, _, (hin hm').1, hne, by rw [hhash]⟩
  refine ⟨hcontent, ?_⟩
  cases m
  cases m'
  simp_all

/-! ### Counting -/

theorem repeats_steady {mid old : List GatewayCall} {q : GatewayCall} {turn : TurnClaims}
    (hq : resolveTurn q.acks = some turn)
    (hmid : ∀ r ∈ mid, r.process = q.process ∧ ∀ u, resolveTurn r.acks = some u → u = turn) :
    repeats old q.process turn (Sha256.hexDigest q.content) <
      repeats (mid ++ q :: old) q.process turn (Sha256.hexDigest q.content) := by
  induction mid with
  | nil => simp [repeats, hq]
  | cons r mid ih =>
    obtain ⟨hprocess, hturn⟩ := hmid r (.head _)
    have hrest := ih fun r' hr' => hmid r' (.tail _ hr')
    rw [List.cons_append, repeats, if_neg (not_not.mpr hprocess)]
    cases hr : resolveTurn r.acks with
    | none => exact hrest
    | some u =>
      obtain rfl := hturn u hr
      simp only [if_true]
      omega

/-- Where the count is not zero, a write began it. -/
theorem repeats_first (calls old : List GatewayCall) {process : ℕ} {turn : TurnClaims} (contentHash : List Char)
    (hold : repeats old process turn contentHash = 0) (h : repeats (calls ++ old) process turn contentHash ≠ 0) :
    ∃ a q b, calls = a ++ q :: b ∧ q.process = process ∧ resolveTurn q.acks = some turn ∧
      Sha256.hexDigest q.content = contentHash ∧ repeats (b ++ old) process turn contentHash = 0 := by
  induction calls with
  | nil => exact (h hold).elim
  | cons r calls ih =>
    by_cases hrest : repeats (calls ++ old) process turn contentHash = 0
    · rw [List.cons_append, repeats] at h
      split at h
      · exact (h rfl).elim
      rename_i hprocess
      split at h
      · exact (h hrest).elim
      rename_i u hr
      split at h
      · rename_i hu
        subst hu
        rw [hrest] at h
        have hhash : Sha256.hexDigest r.content = contentHash := by
          by_contra hne
          exact h (by rw [if_neg hne])
        exact ⟨[], r, calls, rfl, not_not.mp hprocess, hr, hhash, hrest⟩
      · exact (h rfl).elim
    · obtain ⟨a, q, b, rfl, hq⟩ := ih hrest
      exact ⟨r :: a, q, b, rfl, hq⟩

theorem repeats_changed {r : GatewayCall} {old : List GatewayCall} {turn u : TurnClaims}
    (hr : resolveTurn r.acks = some u) (hne : u ≠ turn) (process : ℕ) (contentHash : List Char) :
    repeats (r :: old) process turn contentHash = 0 := by
  simp [repeats, hr, hne]

/-- The contents and marks of calls that follow others, newest first. -/
def marksUpon (old : List GatewayCall) : List GatewayCall → List (List Char × Option Mark)
  | [] => []
  | p :: calls => (p.content, markOf (calls ++ old) p) :: marksUpon old calls

theorem marks_append (calls old : List GatewayCall) : marks (calls ++ old) = marksUpon old calls ++ marks old := by
  induction calls with
  | nil => rfl
  | cons p calls ih => rw [List.cons_append, marks, marksUpon, ih, List.cons_append]

theorem length_marksUpon (old calls : List GatewayCall) : (marksUpon old calls).length = calls.length := by
  induction calls with
  | nil => rfl
  | cons p calls ih => rw [marksUpon, List.length_cons, ih, List.length_cons]

theorem mem_marksUpon {old calls : List GatewayCall} {w : List Char × Option Mark} :
    w ∈ marksUpon old calls ↔ ∃ a p b, calls = a ++ p :: b ∧ w = (p.content, markOf (b ++ old) p) := by
  induction calls with
  | nil => simp [marksUpon]
  | cons r calls ih =>
    rw [marksUpon, List.mem_cons, ih]
    constructor
    · rintro (rfl | ⟨a, p, b, rfl, rfl⟩)
      · exact ⟨[], r, calls, rfl, rfl⟩
      · exact ⟨r :: a, p, b, rfl, rfl⟩
    · rintro ⟨a, p, b, hsplit, rfl⟩
      cases a with
      | nil =>
        obtain ⟨rfl, rfl⟩ := List.cons.inj hsplit
        exact .inl rfl
      | cons r' a =>
        obtain ⟨rfl, rfl⟩ := List.cons.inj hsplit
        exact .inr ⟨a, p, b, rfl, rfl⟩

theorem pairwise_marksUpon {R : List Char × Option Mark → List Char × Option Mark → Prop}
    {old calls : List GatewayCall} :
    (marksUpon old calls).Pairwise R ↔ ∀ a q b p c, calls = a ++ q :: (b ++ p :: c) →
      R (q.content, markOf (b ++ p :: c ++ old) q) (p.content, markOf (c ++ old) p) := by
  induction calls with
  | nil => simp [marksUpon]
  | cons r calls ih =>
    rw [marksUpon, List.pairwise_cons, ih]
    constructor
    · rintro ⟨hhead, htail⟩ a q b p c hsplit
      cases a with
      | nil =>
        obtain ⟨rfl, rfl⟩ := List.cons.inj hsplit
        exact hhead _ (mem_marksUpon.mpr ⟨b, p, c, rfl, rfl⟩)
      | cons r' a =>
        obtain ⟨rfl, rfl⟩ := List.cons.inj hsplit
        exact htail a q b p c rfl
    · intro h
      refine ⟨fun w hw => ?_, fun a q b p c hsplit => h (r :: a) q b p c (by rw [hsplit]; rfl)⟩
      obtain ⟨b, p, c, rfl, rfl⟩ := mem_marksUpon.mp hw
      exact h [] r b p c rfl

/-! ### Executions -/

/-- The stream goes on, with the tools it has: rows arrive and time passes, the model works and writes, follow-ups are
claimed and then skipped, pushed or given back, results acknowledge. -/
def AgentEvent.InStream : AgentEvent → Prop
  | .write .. => True
  | .loop (.host _) | .loop (.clock _) | .loop .abort | .loop (.provider _) => True
  | .loop .tick | .loop (.tickScripts ..) => True
  | _ => False

/-- The calls between two states of an execution, in order. -/
def callsSince (s₀ s : Agent) : List GatewayCall :=
  (s.calls.take (s.writes.length - s₀.writes.length)).reverse

/-- No two writes between the states have one key. -/
def KeysDistinct (s₀ s : Agent) : Prop :=
  (keysSince s₀ s).Pairwise fun w w' => ∀ key, w.2 = some key → w'.2 ≠ some key

/-- Between two writes of one content under the same ids, the claims that the writes see stay the same. -/
def Steady (calls : List GatewayCall) : Prop :=
  ∀ before p between q after t t', calls = before ++ p :: (between ++ q :: after) →
    resolveTurn p.acks = some t → resolveTurn q.acks = some t' → p.content = q.content → t.anchor = t'.anchor →
    ∀ r ∈ between ++ [q], ∀ u, resolveTurn r.acks = some u → u = t

/-- The tools' last write before the execution was under claims that a write of the execution sees, too. -/
def Resumed (s₀ s : Agent) : Prop :=
  ∃ p ∈ callsSince s₀ s, ∃ t, resolveTurn p.acks = some t ∧ s₀.tools.occResetKey = some t

theorem inStream_step {c : LoopConfig} {s s' : Agent} {e : AgentEvent} (he : e.InStream)
    (hs : agentStep c s e = some s') :
    s'.process = s.process ∧ ∃ new, s'.calls = new ++ s.calls ∧ ∀ p ∈ new, p.process = s.process := by
  cases e with
  | loop e =>
    have hframe : ∃ l, s' = { s with loop := l } := by
      cases e with
      | kill => exact he.elim
      | _ =>
        simp only [agentStep] at hs
        obtain ⟨l, -, rfl⟩ := Option.map_eq_some_iff.mp hs
        exact ⟨l, rfl⟩
    obtain ⟨l, rfl⟩ := hframe
    exact ⟨rfl, [], rfl, fun p hp => absurd hp List.not_mem_nil⟩
  | spawnTools => exact he.elim
  | write content readable =>
    simp only [agentStep] at hs
    split at hs
    · obtain rfl := Option.some.inj hs
      refine ⟨rfl, [_], rfl, fun p hp => ?_⟩
      obtain rfl := List.mem_singleton.mp hp
      rfl
    · cases hs

theorem inStream_run {c : LoopConfig} {execution : List AgentEvent} (hexec : ∀ e ∈ execution, e.InStream)
    {s₀ s₁ : Agent} (h : Trans.run (agentStep c) s₀ execution = some s₁) :
    s₁.process = s₀.process ∧ ∃ new, s₁.calls = new ++ s₀.calls ∧ ∀ p ∈ new, p.process = s₀.process := by
  induction execution generalizing s₀ with
  | nil =>
    obtain rfl : s₀ = s₁ := by simpa [Trans.run] using h
    exact ⟨rfl, [], rfl, fun p hp => absurd hp List.not_mem_nil⟩
  | cons e execution ih =>
    obtain ⟨s, hstep, hrest⟩ := Trans.run_cons.mp h
    obtain ⟨hprocess, new, hcalls, hnew⟩ := inStream_step (hexec e (.head _)) hstep
    obtain ⟨hprocess', new', hcalls', hnew'⟩ := ih (fun e' he' => hexec e' (.tail _ he')) hrest
    refine ⟨hprocess'.trans hprocess, new' ++ new, by rw [hcalls', hcalls, List.append_assoc], fun p hp => ?_⟩
    rcases List.mem_append.mp hp with hp | hp
    · rw [hnew' p hp, hprocess]
    · exact hnew p hp

theorem since_calls {s₀ s₁ : Agent} {new : List GatewayCall} (hcalls : s₁.calls = new ++ s₀.calls) :
    callsSince s₀ s₁ = new.reverse ∧ marksSince s₀ s₁ = (marksUpon s₀.calls new).reverse := by
  have hlength : s₁.writes.length - s₀.writes.length = new.length := by
    have hall := congrArg List.length hcalls
    simp only [Agent.calls, List.length_map, List.length_append] at hall
    omega
  rw [callsSince, marksSince, hlength, hcalls, marks_append, List.take_left, List.take_left' (length_marksUpon _ _)]
  exact ⟨rfl, rfl⟩

theorem keysSince_marks {s : Agent} (h : AgentInv s) (s₀ : Agent) :
    keysSince s₀ s = (marksSince s₀ s).map fun m => (m.1, m.2.map (Mark.key m.1)) := by
  rw [keysSince, h.keys, marksSince, ← List.map_take, ← List.map_reverse]

/-! ### Steady claims -/

theorem markOf_some {earlier : List GatewayCall} {p : GatewayCall} {m : Mark} (h : markOf earlier p = some m) :
    ∃ t, resolveTurn p.acks = some t ∧ m = ⟨t.anchor, repeats earlier p.process t (Sha256.hexDigest p.content)⟩ := by
  obtain ⟨t, ht, rfl⟩ := Option.map_eq_some_iff.mp h
  exact ⟨t, ht, rfl⟩

theorem markOf_turn {earlier : List GatewayCall} {p : GatewayCall} {t : TurnClaims} (h : resolveTurn p.acks = some t) :
    markOf earlier p = some ⟨t.anchor, repeats earlier p.process t (Sha256.hexDigest p.content)⟩ := by
  rw [markOf, h]
  rfl

theorem marks_of_steady {new : List GatewayCall} {process : ℕ} (hprocess : ∀ p ∈ new, p.process = process)
    (hsteady : Steady new.reverse) (old : List GatewayCall) :
    (marksUpon old new).Pairwise fun w w' =>
      ∀ m m', w.2 = some m → w'.2 = some m' → w.1 = w'.1 → m ≠ m' := by
  rw [pairwise_marksUpon]
  intro a q b p c hsplit m m' hm hm' hcontent heq
  obtain ⟨t', hq, rfl⟩ := markOf_some hm
  obtain ⟨t, hp, rfl⟩ := markOf_some hm'
  obtain ⟨hanchor, hoccurrence⟩ := Mark.mk.inj heq
  have hsame := hsteady c.reverse p b.reverse q a.reverse t t' (by simp [hsplit]) hp hq hcontent.symm hanchor.symm
  obtain rfl := hsame q (by simp) t' hq
  have hpq : p.process = q.process := by
    rw [hprocess p (by simp [hsplit]), hprocess q (by simp [hsplit])]
  have hmid : ∀ r ∈ b, r.process = p.process ∧ ∀ u, resolveTurn r.acks = some u → u = t' := fun r hr =>
    ⟨by rw [hprocess r (by simp [hsplit, hr]), hprocess p (by simp [hsplit])], hsame r (by simp [hr])⟩
  have hmore : repeats (c ++ old) p.process t' (Sha256.hexDigest p.content) <
      repeats (b ++ p :: c ++ old) p.process t' (Sha256.hexDigest p.content) := by
    have hcount : _ < repeats (b ++ p :: (c ++ old)) p.process t' (Sha256.hexDigest p.content) := repeats_steady hp hmid
    rwa [← List.cons_append, ← List.append_assoc] at hcount
  have hequal : q.content = p.content := hcontent
  rw [hequal, ← hpq] at hoccurrence
  omega

theorem steady_of_marks {new : List GatewayCall} (old : List GatewayCall) {process : ℕ}
    (hprocess : ∀ p ∈ new, p.process = process)
    (hfresh : ∀ p ∈ new, ∀ t, resolveTurn p.acks = some t → ∀ contentHash, repeats old process t contentHash = 0)
    (h : (marksUpon old new).Pairwise fun w w' =>
      ∀ m m', w.2 = some m → w'.2 = some m' → Sha256.hexDigest w.1 = Sha256.hexDigest w'.1 → m ≠ m') :
    Steady new.reverse := by
  intro before p between q after t t' hsplit hp hq hcontent hanchor r hr u hu
  by_contra hne
  have hnew : new = after.reverse ++ q :: (between.reverse ++ p :: before.reverse) := by
    have hback := congrArg List.reverse hsplit
    simpa using hback
  -- a write between them, or the earlier one itself, that was made under other claims than the later one
  obtain ⟨m₁, s, m₂, v, hmid, hs, hv⟩ : ∃ m₁ s m₂ v, between.reverse ++ [p] = m₁ ++ s :: m₂ ∧
      resolveTurn s.acks = some v ∧ v ≠ t' := by
    by_cases ht : t = t'
    · subst ht
      have hbetween : r ∈ between.reverse ++ [p] := by
        rcases List.mem_append.mp hr with hr | hr
        · simp [hr]
        · obtain rfl := List.mem_singleton.mp hr
          exact absurd (Option.some.inj (hu.symm.trans hq)) hne
      obtain ⟨m₁, m₂, hmid⟩ := List.append_of_mem hbetween
      exact ⟨m₁, r, m₂, u, hmid, hu, hne⟩
    · exact ⟨between.reverse, p, [], t, rfl, hp, ht⟩
  obtain ⟨d, hd, htail⟩ : ∃ d, between.reverse = m₁ ++ d ∧ d ++ [p] = s :: m₂ := by
    rcases List.eq_nil_or_concat (s :: m₂) with hnil | ⟨d, x, hx⟩
    · cases hnil
    · rw [List.concat_eq_append] at hx
      rw [hx, ← List.append_assoc] at hmid
      obtain ⟨hd, hpx⟩ := List.append_inj' hmid rfl
      exact ⟨d, hd, by rw [hx, hpx]⟩
  have htail' : d ++ p :: before.reverse = s :: (m₂ ++ before.reverse) := by
    rw [← List.cons_append, ← htail, List.append_assoc]
    rfl
  have hq' : q ∈ new := by simp [hnew]
  have hp' : p ∈ new := by simp [hnew]
  obtain ⟨a₁, q₁, b₁, hsplit₁, hprocess₁, hturn₁, hhash₁, hzero₁⟩ := repeats_first (q :: m₁)
    (s :: (m₂ ++ before.reverse) ++ old) (Sha256.hexDigest q.content) (repeats_changed hs hv process _) (by
      simp [repeats, hprocess q hq', hq])
  obtain ⟨a₂, q₂, b₂, hsplit₂, hprocess₂, hturn₂, hhash₂, hzero₂⟩ := repeats_first (p :: before.reverse)
    old (Sha256.hexDigest p.content) (hfresh p hp' t hp _) (by simp [repeats, hprocess p hp', hp])
  have hwhole : new = (after.reverse ++ a₁) ++ q₁ :: ((b₁ ++ d ++ a₂) ++ q₂ :: b₂) := by
    rw [hnew, hd, List.append_assoc, ← List.cons_append, hsplit₁, hsplit₂]
    simp
  refine pairwise_marksUpon.mp h _ _ _ _ _ hwhole _ _ (markOf_turn hturn₁) (markOf_turn hturn₂) ?_ ?_
  · dsimp only
    rw [hhash₁, hhash₂, hcontent]
  · have hbehind : b₁ ++ d ++ a₂ ++ q₂ :: b₂ ++ old = b₁ ++ (s :: (m₂ ++ before.reverse) ++ old) := by
      rw [← htail', hsplit₂]
      simp
    rw [hbehind, hprocess₁, hhash₁, hzero₁, hprocess₂, hhash₂, hzero₂, hanchor]

/-- **Two equal writes in one execution have two keys exactly when the claims are steady.** In any run, and in any
execution of it, whatever rows arrive, are claimed, skipped, pushed, given back or completed: where between two writes
of one content under the same ids no write was made under other claims, the keys differ pairwise. Where one was, two
keys are the same; unless the tools had made writes under the same claims before. -/
theorem distinct_keys_iff {c : LoopConfig} {inbound : List InboundRow} {acks : List AckRow} {now : ℕ}
    {before execution : List AgentEvent} {s₀ s₁ : Agent}
    (h₀ : Trans.run (agentStep c) (Agent.fresh inbound acks now) before = some s₀)
    (h₁ : Trans.run (agentStep c) s₀ execution = some s₁) (hexec : ∀ e ∈ execution, e.InStream)
    (hcollide : ¬DigitsCollide (hashedTexts (marksSince s₀ s₁))) :
    (Steady (callsSince s₀ s₁) → KeysDistinct s₀ s₁) ∧
      (KeysDistinct s₀ s₁ → Steady (callsSince s₀ s₁) ∨ Resumed s₀ s₁) := by
  have hi₀ := Trans.run_inv (agentInv_step c) (agentInv_fresh inbound acks now) h₀
  have hi₁ := Trans.run_inv (agentInv_step c) hi₀ h₁
  obtain ⟨-, new, hcalls, hprocess⟩ := inStream_run hexec h₁
  obtain ⟨hsince, hmarks⟩ := since_calls hcalls
  rw [KeysDistinct, keysSince_marks hi₁, List.pairwise_map, hmarks, List.pairwise_reverse, hsince]
  rw [hmarks] at hcollide
  constructor
  · intro hsteady
    refine (List.Pairwise.and_mem.mp (marks_of_steady hprocess hsteady s₀.calls)).imp ?_
    rintro ⟨content, m⟩ ⟨content', m'⟩ ⟨hw, hw', hne⟩ key hkey' hkey
    obtain ⟨x', rfl, hx'⟩ := Option.map_eq_some_iff.mp hkey'
    obtain ⟨x, rfl, hx⟩ := Option.map_eq_some_iff.mp hkey
    obtain ⟨hcontent, heq⟩ := mark_of_key hcollide (List.mem_reverse.mpr hw) (List.mem_reverse.mpr hw')
      (hx.trans hx'.symm)
    exact hne x x' rfl rfl hcontent heq
  · intro hdistinct
    by_cases hresumed : Resumed s₀ s₁
    · exact .inr hresumed
    refine .inl (steady_of_marks s₀.calls hprocess ?_ (hdistinct.imp ?_))
    · intro p hp t ht contentHash
      rw [hi₀.counts, if_neg]
      intro hlast
      exact hresumed ⟨p, by rw [hsince]; exact List.mem_reverse.mpr hp, t, ht, hlast⟩
    · rintro ⟨content, m⟩ ⟨content', m'⟩ hkeys x x' rfl rfl hhash rfl
      refine hkeys (x.key content') rfl ?_
      have hkey : Mark.key content x = Mark.key content' x := by
        dsimp only at hhash
        rw [Mark.key, Mark.key, hhash]
      exact congrArg some hkey

theorem steady_of_same {calls : List GatewayCall} {turn : Option TurnClaims}
    (h : ∀ p ∈ calls, resolveTurn p.acks = turn) : Steady calls := by
  rintro before p between q after t t' rfl hp - - - r hr u hu
  have hr' : r ∈ before ++ p :: (between ++ q :: after) := by
    rcases List.mem_append.mp hr with hr | hr
    · simp [hr]
    · simp [List.mem_singleton.mp hr]
  rw [h r hr', ← h p (by simp), hp] at hu
  exact (Option.some.inj hu).symm

/-! ### A follow-up that is skipped -/

/-- A scheduled task with a pre-task script. -/
def monitorRow : InboundRow :=
  { bookingRow with
    id := "t1", seq := 4, kind := .task, content := some (.obj [("prompt", .str "look"), ("script", .str "check")]) }

/-- The container starts and claims the booking. -/
def bookingClaimed : List AgentEvent := [.loop .start, .loop .poll, .loop (.scripts fun _ => true)]

/-- The agent books twice. -/
def bookedTwice : List AgentEvent := [.write ['b'] true, .write ['b'] true]

/-- The agent books; while the script of a task runs it looks something up; the script does not wake it; it books
again. -/
def bookedAround : List AgentEvent :=
  [.write ['b'] true, .loop (.host [bookingRow, monitorRow]), .loop .tick, .write ['l'] true,
    .loop (.tickScripts 0 fun _ => false), .write ['b'] true]

theorem distinct_keys_iff_sample : ∃ s₀ s₁,
    Trans.run (agentStep ⟨10, false⟩) (Agent.fresh [bookingRow] [] 0) bookingClaimed = some s₀ ∧
      Trans.run (agentStep ⟨10, false⟩) s₀ bookedTwice = some s₁ ∧ (keysSince s₀ s₁).length = 2 ∧
      KeysDistinct s₀ s₁ := by
  have hexec : ∀ e ∈ bookedTwice, e.InStream := by
    simp [bookedTwice, AgentEvent.InStream]
  have hcollide : ¬DigitsCollide [['b'], keyText ['m', '1'] (Sha256.hexDigest ['b']) 0, ['b'],
      keyText ['m', '1'] (Sha256.hexDigest ['b']) 1] := by
    unfold DigitsCollide
    decide +kernel
  have hsame : ∀ p ∈ ([⟨0, some [⟨"m1", .processing, 0⟩], ['b']⟩, ⟨0, some [⟨"m1", .processing, 0⟩], ['b']⟩] :
      List GatewayCall), resolveTurn p.acks = some ⟨['m', '1'], 0⟩ := by
    decide +kernel
  exact ⟨_, _, rfl, rfl, rfl, (@distinct_keys_iff ⟨10, false⟩ [bookingRow] [] 0 bookingClaimed bookedTwice _ _ rfl rfl
    hexec hcollide).1 (steady_of_same hsame)⟩

/-- The key of the second booking is the key of the first: the claims changed and changed back. -/
theorem skipped_followup_repeats : ∃ s₀ s₁,
    Trans.run (agentStep ⟨10, false⟩) (Agent.fresh [bookingRow] [] 0) bookingClaimed = some s₀ ∧
      Trans.run (agentStep ⟨10, false⟩) s₀ bookedAround = some s₁ ∧ (∀ e ∈ bookedAround, e.InStream) ∧
      ¬KeysDistinct s₀ s₁ := by
  refine ⟨_, _, rfl, rfl, by simp [bookedAround, AgentEvent.InStream], fun hdistinct => ?_⟩
  have hfirst := (List.pairwise_cons.mp hdistinct).1 (['b'], some (Mark.key ['b'] ⟨['m', '1'], 0⟩))
    (.tail _ (.head _))
  exact hfirst (Mark.key ['b'] ⟨['m', '1'], 0⟩) rfl rfl

end AgentDesk
